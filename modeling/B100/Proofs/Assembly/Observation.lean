import B100.Proofs.Assembly.Items
import B100.Proofs.Encoding.Lookups
import B100.Proofs.Settings.Layers

/-! # What an assembly sees of the settings

An assembly sees of the settings only the answers that it records. So resolvers that agree on the
recorded keys cannot be told apart. A key that is not found ends the assembly, and hence settings
that are asked after all others never change an assembly that succeeds without them.
-/

namespace B100

namespace Assembly

section Collect

variable {encoded before : List (List Lookup × Except SourceError Word)}

theorem lookups_collect_append (h : ∀ x ∈ before, ∃ w, x.2 = .ok w)
    (rest : List (List Lookup × Except SourceError Word)) :
    (collect (before ++ rest)).1 = before.flatMap Prod.fst ++ (collect rest).1 := by
  induction before with
  | nil => rfl
  | cons x before ih =>
    obtain ⟨lookups, result⟩ := x
    obtain ⟨w, rfl⟩ : ∃ w, result = .ok w := h _ List.mem_cons_self
    have hrest := ih fun y hy => h y (List.mem_cons_of_mem _ hy)
    calc (collect ((lookups, .ok w) :: before ++ rest)).1
      _ = lookups ++ (collect (before ++ rest)).1 := rfl
      _ = ((lookups, .ok w) :: before).flatMap Prod.fst ++ (collect rest).1 := by
        rw [hrest, List.flatMap_cons, List.append_assoc]

theorem lookups_collect_of_error {x : List Lookup × Except SourceError Word} {e : SourceError}
    (h : x.2 = .error e) (rest : List (List Lookup × Except SourceError Word)) :
    (collect (x :: rest)).1 = x.1 := by
  obtain ⟨lookups, result⟩ := x
  obtain rfl : result = .error e := h
  rfl

theorem endsAtMiss_collect
    (h : ∀ x ∈ encoded, EndsAtMiss x.1 (x.2.mapError SourceError.fault)) :
    EndsAtMiss (collect encoded).1 ((collect encoded).2.mapError SourceError.fault) := by
  induction encoded with
  | nil => exact .inl ⟨nofun, nofun⟩
  | cons x encoded ih =>
    have hx := h x List.mem_cons_self
    have hrest := ih fun y hy => h y (List.mem_cons_of_mem _ hy)
    obtain ⟨lookups, e | w⟩ := x
    · exact hx.imp fun f => by simp [collect, cons, Except.mapError]
    · have hnumbers : ∀ q ∈ lookups, q.fault? = none := hx.numbers_of_ok
      refine (hrest.append hnumbers).imp fun f => ?_
      change _ ↔ ((collect encoded).2.map (w :: ·)).mapError SourceError.fault = _
      cases hc : (collect encoded).2 <;> simp_all [Except.map, Except.mapError]

/-- Two ways to encode lines that agree wherever the lookups have a property agree on all lines, if
the lookups that count have it. -/
theorem collect_map_congr {P : Lookup → Prop} {ls : List Line}
    {f g : Line → List Lookup × Except SourceError Word}
    (hline : ∀ l, (∀ q ∈ (f l).1, P q) → g l = f l)
    (h : ∀ q ∈ (collect (ls.map f)).1, P q) : collect (ls.map g) = collect (ls.map f) := by
  induction ls with
  | nil => rfl
  | cons l ls ih =>
    rw [List.map_cons] at h
    have hl := hline l
    rw [List.map_cons, List.map_cons]
    rcases hf : f l with ⟨lookups, e | w⟩
    · rw [hf] at h hl
      rw [hl h]
      rfl
    · rw [hf] at h hl
      have happend : ∀ q ∈ lookups ++ (collect (ls.map f)).1, P q := h
      obtain ⟨hnow, hlater⟩ := List.forall_mem_append.mp happend
      rw [hl hnow]
      exact congrArg (cons (lookups, .ok w)) (ih hlater)

end Collect

variable (isa : InstructionSet) (resolve : Text → Option Text) (src : Text)

def asked (l : Line) : List Lookup := ((encoding isa src).line resolve l).1

variable {isa resolve src} {other : Text → Option Text}

theorem length_asked_le (l : Line) :
    (asked isa resolve src l).length ≤ (Statement.ofText l.text).slots :=
  ((encoding isa src).asks_statement _).length_le resolve

theorem endsAtMiss_line (l : Line) :
    EndsAtMiss (asked isa resolve src l)
      ((word isa resolve src l).mapError SourceError.fault) := by
  have h := ((encoding isa src).asks_statement (Statement.ofText l.text)).endsAtMiss resolve
  refine h.imp fun f => ?_
  rw [word_eq, Encoding.instruction]
  cases Encoder.result resolve ((encoding isa src).statement (Statement.ofText l.text)) <;>
    simp [Except.mapError]

theorem endsAtMiss (isa : InstructionSet) (resolve : Text → Option Text) (src : Text) :
    EndsAtMiss (assemble isa resolve src).lookups
      ((assemble isa resolve src).outcome.mapError SourceError.fault) := by
  apply endsAtMiss_collect
  intro x hx
  obtain ⟨l, -, rfl⟩ := List.mem_map.mp hx
  exact endsAtMiss_line l

theorem found_of_outcome_eq_ok {p : Program} (h : (assemble isa resolve src).outcome = .ok p) :
    ∀ q ∈ (assemble isa resolve src).lookups, q.value ≠ none := by
  have hmiss := endsAtMiss isa resolve src
  rw [h] at hmiss
  exact fun q hq => Lookup.value_ne_none (hmiss.numbers_of_ok q hq)

theorem lookups_of_outcome_eq_ok {p : Program} (h : (assemble isa resolve src).outcome = .ok p) :
    (assemble isa resolve src).lookups =
      (Source.instructions src).flatMap (asked isa resolve src) := by
  have hall : ∀ x ∈ encoded isa resolve src, ∃ w, x.2 = .ok w := by
    intro x hx
    obtain ⟨l, hl, rfl⟩ := List.mem_map.mp hx
    obtain ⟨i, hi⟩ := List.mem_iff_getElem?.mp hl
    obtain ⟨w, -, hw⟩ := getElem?_of_outcome_eq_ok h hi
    exact ⟨w, hw⟩
  have hcollect := lookups_collect_append hall []
  rw [List.append_nil] at hcollect
  rw [assemble_eq, hcollect, encoded, List.flatMap_map]
  exact List.append_nil _

theorem FirstError.lookups {e : SourceError} {i : Nat} {l : Line}
    (h : FirstError isa resolve src e i l) :
    (assemble isa resolve src).lookups =
      ((Source.instructions src).take (i + 1)).flatMap (asked isa resolve src) := by
  obtain ⟨hi, rfl⟩ := List.getElem?_eq_some_iff.mp h.line
  have hsplit : encoded isa resolve src =
      ((Source.instructions src).take i).map ((encoding isa src).line resolve) ++
        (encoding isa src).line resolve (Source.instructions src)[i] ::
          ((Source.instructions src).drop (i + 1)).map ((encoding isa src).line resolve) := by
    rw [← List.map_cons, ← List.map_append, ← List.drop_eq_getElem_cons hi, List.take_append_drop]
    rfl
  have hbefore : ∀ x ∈ ((Source.instructions src).take i).map ((encoding isa src).line resolve),
      ∃ w, x.2 = .ok w := by
    intro x hx
    obtain ⟨m, hm, rfl⟩ := List.mem_map.mp hx
    exact h.first m hm
  rw [assemble_eq, hsplit, lookups_collect_append hbefore, lookups_collect_of_error h.error,
    List.flatMap_map, List.take_succ_eq_append_getElem hi, List.flatMap_append,
    List.flatMap_singleton]
  rfl

theorem value_of_mem_lookups {q : Lookup} (h : q ∈ (assemble isa resolve src).lookups) :
    q.value = resolve q.key := by
  have hasked : ∃ l, q ∈ asked isa resolve src l := by
    cases ho : (assemble isa resolve src).outcome with
    | ok p =>
      rw [lookups_of_outcome_eq_ok ho] at h
      obtain ⟨l, -, hl⟩ := List.mem_flatMap.mp h
      exact ⟨l, hl⟩
    | error e =>
      obtain ⟨i, m, hfirst⟩ := exists_firstError ho
      rw [hfirst.lookups] at h
      obtain ⟨l, -, hl⟩ := List.mem_flatMap.mp h
      exact ⟨l, hl⟩
  obtain ⟨l, hl⟩ := hasked
  exact Inquiry.value_of_mem_run (x := ((encoding isa src).instruction l.text).run) hl

/-- Resolvers that agree on the keys that are asked for cannot be told apart. -/
theorem assemble_congr (h : ∀ q ∈ (assemble isa resolve src).lookups, other q.key = resolve q.key) :
    assemble isa other src = assemble isa resolve src := by
  have hline : ∀ l, (∀ q ∈ ((encoding isa src).line resolve l).1, other q.key = resolve q.key) →
      (encoding isa src).line other l = (encoding isa src).line resolve l := by
    intro l hl
    have hrun : ((encoding isa src).instruction l.text).run.run other = _ := Inquiry.run_congr hl
    simp only [Encoding.line, hrun]
  have hcollect : collect (encoded isa other src) = collect (encoded isa resolve src) :=
    collect_map_congr hline h
  rw [assemble_eq, hcollect, ← assemble_eq]

theorem assemble_of_extends {p : Program}
    (hextends : ∀ key value, resolve key = some value → other key = some value)
    (h : (assemble isa resolve src).outcome = .ok p) :
    assemble isa other src = assemble isa resolve src := by
  apply assemble_congr
  intro q hq
  obtain ⟨value, hvalue⟩ := Option.ne_none_iff_exists'.mp (found_of_outcome_eq_ok h q hq)
  rw [value_of_mem_lookups hq] at hvalue
  rw [hvalue, hextends _ _ hvalue]

end Assembly

open Assembly

/-- Nothing of the settings reaches an assembly but the answers that it records. Each line up to the
first error adds its lookups, at most one for each of its slots, and a key that is not found is the
last one and the fault. -/
theorem settings_are_seen_through_lookups (isa : InstructionSet)
    (resolve other : Text → Option Text)
    (src : Text) :
    ((∀ q ∈ (assemble isa resolve src).lookups, other q.key = resolve q.key) →
      assemble isa other src = assemble isa resolve src) ∧
    (∀ q ∈ (assemble isa resolve src).lookups, q.value = resolve q.key) ∧
    (∀ l, (asked isa resolve src l).length ≤ (Statement.ofText l.text).slots) ∧
    (∀ p, (assemble isa resolve src).outcome = .ok p →
      (assemble isa resolve src).lookups =
        (Source.instructions src).flatMap (asked isa resolve src)) ∧
    (∀ e, (assemble isa resolve src).outcome = .error e →
      ∃ i l, FirstError isa resolve src e i l ∧
        (assemble isa resolve src).lookups =
          ((Source.instructions src).take (i + 1)).flatMap (asked isa resolve src)) ∧
    ∀ (i : Nat) q, (assemble isa resolve src).lookups[i]? = some q → q.value = none →
      i + 1 = (assemble isa resolve src).lookups.length ∧
        ∃ e, (assemble isa resolve src).outcome = .error e ∧ e.fault = .unknownSetting q.key ∧
          e.fault.kind = .invalidOperand := by
  refine ⟨assemble_congr, fun q => value_of_mem_lookups, length_asked_le,
    fun p => lookups_of_outcome_eq_ok, fun e he => ?_, fun i q hq hmiss => ?_⟩
  · obtain ⟨i, l, hfirst⟩ := exists_firstError he
    exact ⟨i, l, hfirst, hfirst.lookups⟩
  · obtain ⟨hlast, hfault⟩ := (endsAtMiss isa resolve src).last_of_miss hq hmiss
    refine ⟨hlast, ?_⟩
    cases ho : (assemble isa resolve src).outcome with
    | ok p => simp [ho, Except.mapError] at hfault
    | error e =>
      have hfault : e.fault = .unknownSetting q.key := by
        simpa [ho, Except.mapError] using hfault
      exact ⟨e, rfl, hfault, by rw [hfault]; rfl⟩

/-- A key behind the first error is bound by one resolver only, and neither run asks for it. -/
theorem settings_are_seen_through_lookups_late :
    let src : Text := "iosr $conf.io.uart,$conf.reg\npush $conf.late.x\npush $conf.last"
    let few : Settings := Settings.set (Settings.set ∅ "$conf.io.uart" "7") "$conf.reg" "2"
    let many : Settings := few.set "$conf.last" "1"
    let lookups : List Lookup := [⟨"$conf.io.uart", some (Text.utf8 "7")⟩,
      ⟨"$conf.reg", some (Text.utf8 "2")⟩, ⟨"$conf.late.x", none⟩]
    (assemble .standard few.lookup src).lookups = lookups ∧
      (∀ q ∈ lookups, many.lookup q.key = few.lookup q.key) ∧
      many.lookup "$conf.last" ≠ few.lookup "$conf.last" ∧
      assemble .standard many.lookup src = assemble .standard few.lookup src ∧
      ∃ e, (assemble .standard few.lookup src).outcome = .error e ∧
        e.fault = .unknownSetting "$conf.late.x" := by
  intro src few many lookups
  have hlookups : (assemble .standard few.lookup src).lookups = lookups := by
    decide +kernel
  have hagree : ∀ q ∈ lookups, many.lookup q.key = few.lookup q.key := by
    decide +kernel
  obtain ⟨hcongr, -, -, -, -, hmiss⟩ :=
    settings_are_seen_through_lookups .standard few.lookup many.lookup src
  obtain ⟨-, e, he, hfault, -⟩ := hmiss 2 ⟨"$conf.late.x", none⟩ (by rw [hlookups]; rfl) rfl
  exact ⟨hlookups, hagree, by decide +kernel, hcongr (hlookups ▸ hagree), e, he, hfault⟩

/-- Settings of lower precedence never change an assembly that succeeds, and what succeeds without
any settings goes its way whatever they are. -/
theorem lower_layers_change_no_success (isa : InstructionSet) (src : Text) :
    (∀ (upper lower : List Layer) (p : Program),
      (assemble isa (Layer.stack upper).lookup src).outcome = .ok p →
        (assemble isa (Layer.stack (upper ++ lower)).lookup src).outcome = .ok p ∧
        assemble isa (Layer.stack (upper ++ lower)).lookup src =
          assemble isa (Layer.stack upper).lookup src ∧
        ∀ q ∈ (assemble isa (Layer.stack (upper ++ lower)).lookup src).lookups,
          q.value ≠ none) ∧
    ∀ p : Program, (assemble isa (fun _ => none) src).outcome = .ok p →
      ∀ resolve : Text → Option Text,
        assemble isa resolve src = assemble isa (fun _ => none) src := by
  refine ⟨fun upper lower p hp => ?_, fun p hp resolve => assemble_of_extends nofun hp⟩
  have hsame : assemble isa (Layer.stack (upper ++ lower)).lookup src =
      assemble isa (Layer.stack upper).lookup src :=
    assemble_of_extends (fun key value hkey => Layer.lookup_stack_append hkey lower) hp
  rw [hsame]
  exact ⟨hp, rfl, found_of_outcome_eq_ok hp⟩

/-- Settings for a numeral, for a label and for a key that a layer above binds are never asked. -/
theorem lower_layers_change_no_success_shadowed :
    let upper : List Layer := [.absent, .table (Settings.set ∅ "$conf.x" "3")]
    let shadowed : Settings := Settings.set (Settings.set ∅ "5" "9") "$lbl.a" "7"
    let lower : List Layer := [.table (shadowed.set "$conf.x" "4"), .absent]
    let src : Text := "push 5\npush $lbl.a\n:a"
    let longer : Text := src ++ "\npush $conf.x"
    (assemble .standard (Layer.stack upper).lookup longer).outcome =
        .ok [0x8005, 0x8002, 0x8003] ∧
      (assemble .standard (Layer.stack (upper ++ lower)).lookup longer).outcome =
        .ok [0x8005, 0x8002, 0x8003] ∧
      (assemble .standard (fun _ => none) src).outcome = .ok [0x8005, 0x8002] ∧
      assemble .standard shadowed.lookup src = assemble .standard (fun _ => none) src := by
  intro upper shadowed lower src longer
  have hupper : (assemble .standard (Layer.stack upper).lookup longer).outcome =
      .ok [0x8005, 0x8002, 0x8003] := by
    decide +kernel
  have hnone : (assemble .standard (fun _ => none) src).outcome = .ok [0x8005, 0x8002] := by
    decide +kernel
  have hlayers := (lower_layers_change_no_success .standard longer).1 upper lower _ hupper
  exact ⟨hupper, hlayers.1, hnone,
    (lower_layers_change_no_success .standard src).2 _ hnone shadowed.lookup⟩

end B100
