import B100.FileTree.Content
import B100.Tool.Request
import B100.Proofs.Assembly.Outcome
import B100.Proofs.FileTree.Change
import B100.Proofs.Settings.Layers
import B100.Proofs.Word.Image

/-! # Runs of the tool

How a run of the tool can end, and what it has then done to the file tree. Whatever goes wrong
before the image is opened changes nothing. From then on one file changes, the image, and never the
source: it is left with all of the image, or with a front part of it if the write goes wrong.
-/

namespace B100

theorem Kind.ofCode?_code (k : Kind) : ofCode? k.code = some k := by
  cases k <;> rfl

theorem Kind.exitStatus_le_seven {k : Kind} (h : k ≠ .fileError) :
    2 ≤ k.exitStatus ∧ k.exitStatus ≤ 7 := by
  cases k <;> first | exact absurd rfl h | decide

def RunError.status : RunError → Nat
  | source e => e.fault.kind.exitStatus
  | _ => Kind.fileError.exitStatus

theorem RunError.exitStatus_diagnostic (e : RunError) :
    exitStatus (some (.diagnostic e.diagnostic)) = e.status := by
  cases e with
  | source e =>
    simp only [exitStatus, Failure.diagnostic?, Diagnostic.kind?, diagnostic,
      SourceError.diagnostic, Option.bind_some, Kind.ofCode?_code, Option.getD_some, status]
  | settings e => rfl
  | unread path e => rfl
  | overwrites output => rfl
  | unwritten path e => rfl

namespace Machine

variable {α β : Type} (mishap? : Option Mishap) (s : Machine)

-- The parentheses keep these from being used as definitional steps, which the kernel would check by
-- running the whole tool.

theorem run_bind (x : StateM Machine α) (f : α → StateM Machine β) :
    (x >>= f).run s = (f (x.run s).1).run (x.run s).2 := (rfl)

theorem run_pure (a : α) : (pure a : StateM Machine α).run s = (a, s) := (rfl)

theorem run_read (path : Text) :
    ((host mishap?).read path).run s = (s.tree.read path, s) := (rfl)

theorem run_same (a b : Text) :
    ((host mishap?).same a b).run s = (s.tree.same a b, s) := (rfl)

theorem run_write (path content : Text) :
    ((host mishap?).write path content).run s =
      ((s.tree.write mishap? path content).2,
        { s with tree := (s.tree.write mishap? path content).1 }) := (rfl)

/-- On a machine, loading settings one after another is loading them from its tree. -/
theorem run_load (paths : List Text) :
    ((host mishap?).load paths).run s = (Settings.loadAll s.tree.read paths, s) := by
  induction paths with
  | nil => rfl
  | cons path paths ih =>
    have hload : Settings.load (fun _ => s.tree.read path) path = Settings.load s.tree.read path :=
      rfl
    rw [Settings.loadAll] at ih
    simp only [Host.load, run_bind, run_read, hload, Settings.loadAll, List.mapM_cons]
    cases Settings.load s.tree.read path with
    | error e => rfl
    | ok v =>
      simp only [run_bind, ih]
      cases paths.mapM (Settings.load s.tree.read) <;> rfl

end Machine

namespace Request

/-- The settings of a request load, and its source can be read. -/
structure Reads (t : FileTree) (r : Request) (tables : List Settings) (src : Text) : Prop where
  settings : List.Forall₂ (Settings.Gives t.read) r.configs tables
  source : t.read r.source = .ok src

def assembly (r : Request) (tables : List Settings) (src : Text) : Assembly :=
  assemble .standard (r.session tables).resolver.lookup src

def FailsAt (t : FileTree) (r : Request) (e : SourceError) : Prop :=
  ∃ tables src, Reads t r tables src ∧ (r.assembly tables src).outcome = .error e

/-- What a run fails with before it opens the image. -/
inductive Fails (t : FileTree) (r : Request) : RunError → Prop
  | settings {e : LoadError} (load : Settings.loadAll t.read r.configs = .error e) :
    Fails t r (.settings e)
  | unread {tables : List Settings} {e : FileError}
    (load : Settings.loadAll t.read r.configs = .ok tables) (read : t.read r.source = .error e) :
    Fails t r (.unread r.source e)
  | source {e : SourceError} (line : FailsAt t r e) : Fails t r (.source e)
  | overwrites {tables : List Settings} {src : Text} {p : Program} (reads : Reads t r tables src)
    (outcome : (r.assembly tables src).outcome = .ok p)
    (same : t.same r.outputPath r.source = true) : Fails t r (.overwrites r.outputPath)

/-- Something keeps a run from writing an image. -/
inductive Hindered (t : FileTree) (r : Request) : Prop
  | settings {path reason : Text} {e : LoadError} (mem : path ∈ r.configs)
    (refused : Settings.Refused t.read path e reason)
  | unread {e : FileError} (read : t.read r.source = .error e)
  | line {tables : List Settings} {src : Text} {l : Line} {e : SourceError}
    (reads : Reads t r tables src) (mem : l ∈ Source.instructions src)
    (error : Assembly.word .standard (r.session tables).resolver.lookup src l = .error e)
  | overwrites (same : t.OneFile r.outputPath r.source)

/-- A run gets to write an image. -/
structure Writes (t : FileTree) (r : Request) (tables : List Settings) (src : Text) (p : Program) :
    Prop where
  reads : Reads t r tables src
  outcome : (r.assembly tables src).outcome = .ok p
  apart : t.same r.outputPath r.source = false

variable {t : FileTree} {r : Request} {tables : List Settings} {src : Text} {p : Program}
  (mishap? : Option Mishap)

theorem Reads.run_build (h : Reads t r tables src) :
    (r.build (Machine.host mishap?)).run { tree := t } =
      ((r.assembly tables src).outcome.mapError .source,
        { tree := t, stderr := r.report ((r.session tables).assemble src).2 }) := by
  have hload := Settings.loadAll_eq_ok_iff.mpr h.settings
  simp only [build, Machine.run_bind, Machine.run_load, hload, Machine.run_read, h.source]
  rfl

theorem run_of_build_error {e : RunError} {s : Machine}
    (h : (r.build (Machine.host mishap?)).run { tree := t } = (.error e, s)) :
    (r.run t mishap?).tree = s.tree ∧ (r.run t mishap?).error? = some e := by
  simp only [Request.run, perform, Machine.run_bind, h, Machine.run_pure, and_self]

/-- A run that fails before it opens the image leaves the tree alone. -/
theorem Fails.run {e : RunError} (h : Fails t r e) :
    (r.run t mishap?).tree = t ∧ (r.run t mishap?).error? = some e := by
  cases h with
  | settings load =>
    apply run_of_build_error mishap? (s := { tree := t })
    simp only [build, Machine.run_bind, Machine.run_load, load, Machine.run_pure]
  | unread load read =>
    apply run_of_build_error mishap? (s := { tree := t })
    simp only [build, Machine.run_bind, Machine.run_load, load, Machine.run_read, read]
    rfl
  | source line =>
    obtain ⟨tables, src, reads, outcome⟩ := line
    have hbuild := reads.run_build mishap?
    rw [outcome] at hbuild
    exact run_of_build_error mishap? hbuild
  | overwrites reads outcome same =>
    simp only [Request.run, perform, Machine.run_bind, reads.run_build, outcome, Except.mapError,
      Machine.run_same, same, if_true, Machine.run_pure, and_self]

theorem Writes.run (h : Writes t r tables src p) :
    (r.run t mishap?).tree = (t.write mishap? r.outputPath p.image).1 ∧
      (r.run t mishap?).error? =
        (t.write mishap? r.outputPath p.image).2.map (.unwritten r.outputPath) := by
  simp only [Request.run, perform, Machine.run_bind, h.reads.run_build, h.outcome, Except.mapError,
    Machine.run_same, h.apart, Bool.false_eq_true, if_false, Program.write, Machine.run_write,
    Machine.run_pure, and_self]

theorem fails_or_writes (t : FileTree) (r : Request) :
    (∃ e, Fails t r e) ∨ ∃ tables src p, Writes t r tables src p := by
  cases load : Settings.loadAll t.read r.configs with
  | error e => exact .inl ⟨_, .settings load⟩
  | ok tables =>
    cases read : t.read r.source with
    | error e => exact .inl ⟨_, .unread load read⟩
    | ok src =>
      have reads : Reads t r tables src := ⟨Settings.loadAll_eq_ok_iff.mp load, read⟩
      cases outcome : (r.assembly tables src).outcome with
      | error e => exact .inl ⟨_, .source ⟨tables, src, reads, outcome⟩⟩
      | ok p =>
        cases same : t.same r.outputPath r.source with
        | true => exact .inl ⟨_, .overwrites reads outcome same⟩
        | false => exact .inr ⟨tables, src, p, reads, outcome, same⟩

theorem Writes.error_ne_source (h : Writes t r tables src p) (e : SourceError) :
    (r.run t mishap?).error? ≠ some (.source e) := by
  intro he
  obtain ⟨f, -, hf⟩ := Option.map_eq_some_iff.mp ((h.run mishap?).2.symm.trans he)
  cases hf

theorem failsAt_iff {e : SourceError} :
    FailsAt t r e ↔ (r.run t mishap?).error? = some (.source e) := by
  constructor
  · intro h
    exact (Fails.source h).run mishap? |>.2
  · intro he
    rcases fails_or_writes t r with ⟨f, hf⟩ | ⟨tables, src, p, hw⟩
    · obtain rfl := Option.some.inj ((hf.run mishap?).2.symm.trans he)
      cases hf
      assumption
    · exact absurd he (hw.error_ne_source mishap? e)

theorem writes_of_success (he : (r.run t mishap?).error? = none) :
    ∃ tables src p, Writes t r tables src p := by
  rcases fails_or_writes t r with ⟨e, hf⟩ | hw
  · cases (hf.run mishap?).2.symm.trans he
  · exact hw

theorem Writes.ends (h : Writes t r tables src p) : ∃ u error?,
    t.WriteEnds r.outputPath p.image u error? ∧ (r.run t mishap?).tree = u ∧
      (r.run t mishap?).error? = error?.map (.unwritten r.outputPath) :=
  ⟨_, _, t.write_ends mishap? r.outputPath p.image, h.run mishap?⟩

/-- Either nothing has changed, or the one file that the path of the image leads to, and then it was
not the source. -/
theorem run_change (t : FileTree) (r : Request) :
    (r.run t mishap?).tree = t ∨ ∃ k, (r.run t mishap?).tree.find r.outputPath = .ok k ∧
      t.AlikeBut k (r.run t mishap?).tree ∧ (t.nodes[k]? = none ∨ t.find r.source ≠ .ok k) := by
  rcases fails_or_writes t r with ⟨e, hf⟩ | ⟨tables, src, p, hw⟩
  · exact .inl (hf.run mishap?).1
  · obtain ⟨u, error?, hend, htree, -⟩ := hw.ends mishap?
    rw [htree]
    cases hend with
    | unopened operation => exact .inl rfl
    | opened ho operation front whole =>
      cases ho with
      | device find node => exact .inl rfl
      | file find change place =>
        refine .inr ⟨_, find, change, place.imp_right fun hout hsource => ?_⟩
        have hsame := FileTree.same_eq_true_iff.mpr (.inr ⟨_, hout, hsource⟩)
        cases hsame.symm.trans hw.apart

theorem source_unchanged {i : Nat} {content : Text} (hf : t.find r.source = .ok i)
    (hc : t.nodes[i]? = some (.file content)) :
    (r.run t mishap?).tree.find r.source = .ok i ∧
      (r.run t mishap?).tree.nodes[i]? = some (.file content) := by
  rcases run_change mishap? t r with ht | ⟨k, -, ha, hn⟩
  · rw [ht]
    exact ⟨hf, hc⟩
  · have hi : i ≠ k := by
      rintro rfl
      rcases hn with hn | hn
      · cases hn.symm.trans hc
      · exact hn hf
    have hn : ∀ parent entries, Node.file content ≠ .directory parent entries := fun _ _ => nofun
    exact ⟨(ha.find_iff hi).mpr hf, (ha.node_iff hi hn).mpr hc⟩

theorem read_iff {path content : Text} (hp : ∀ i, (r.run t mishap?).tree.find path = .ok i →
      (r.run t mishap?).tree.find r.outputPath ≠ .ok i) :
    (r.run t mishap?).tree.read path = .ok content ↔ t.read path = .ok content := by
  rcases run_change mishap? t r with ht | ⟨k, hk, ha, -⟩
  · rw [ht]
  · exact ha.read_iff fun hf => hp k hf hk

theorem written_image (he : (r.run t mishap?).error? = none) :
    ∃ tables src p k, Reads t r tables src ∧ (r.assembly tables src).outcome = .ok p ∧
      (r.run t mishap?).tree.find r.outputPath = .ok k ∧
      ∀ content, (r.run t mishap?).tree.nodes[k]? = some (.file content) →
        p.BigEndian content ∧ content.length = 2 * (Source.instructions src).length := by
  obtain ⟨tables, src, p, hw⟩ := writes_of_success mishap? he
  obtain ⟨u, error?, hend, htree, herror⟩ := hw.ends mishap?
  obtain rfl := Option.map_eq_none_iff.mp (herror.symm.trans he)
  rw [htree]
  cases hend with
  | opened ho operation front whole =>
    refine ⟨tables, src, p, _, hw.reads, hw.outcome, ho.find, fun content hc => ?_⟩
    obtain rfl := whole rfl content hc
    refine ⟨p.bigEndian_image, ?_⟩
    rw [Program.length_image, Assembly.length_of_outcome_eq_ok hw.outcome,
      Source.length_instructions]

theorem cut_image (he : (r.run t mishap?).error? ≠ none) :
    (r.run t mishap?).tree = t ∨ ∃ tables src p k e, Reads t r tables src ∧
      (r.assembly tables src).outcome = .ok p ∧
      (r.run t mishap?).error? = some (.unwritten r.outputPath e) ∧ e.operation ≠ .opening ∧
      (r.run t mishap?).tree.find r.outputPath = .ok k ∧
      ∀ content, (r.run t mishap?).tree.nodes[k]? = some (.file content) → content <+: p.image := by
  rcases fails_or_writes t r with ⟨e, hf⟩ | ⟨tables, src, p, hw⟩
  · exact .inl (hf.run mishap?).1
  · obtain ⟨u, error?, hend, htree, herror⟩ := hw.ends mishap?
    rw [htree]
    cases hend with
    | unopened operation => exact .inl rfl
    | opened ho operation front whole =>
      cases error? with
      | none => exact absurd herror he
      | some e =>
        exact .inr ⟨tables, src, p, _, e, hw.reads, hw.outcome, herror, operation e rfl, ho.find,
          front⟩

theorem Fails.hindered {e : RunError} (h : Fails t r e) : Hindered t r := by
  cases h with
  | settings load =>
    obtain ⟨before, path, after, reason, hpaths, hfirst⟩ := Settings.loadAll_eq_error_iff.mp load
    exact .settings (by simp [hpaths]) hfirst.refused
  | unread load read => exact .unread read
  | source line =>
    obtain ⟨tables, src, reads, outcome⟩ := line
    obtain ⟨i, l, hl, hword, -⟩ := Assembly.outcome_eq_error_iff.mp outcome
    exact .line reads (List.mem_of_getElem? hl) hword
  | overwrites reads outcome same => exact .overwrites (FileTree.same_eq_true_iff.mp same)

theorem Hindered.exists_fails (h : Hindered t r) : ∃ e, Fails t r e := by
  rcases fails_or_writes t r with hf | ⟨tables, src, p, hw⟩
  · exact hf
  · exfalso
    cases h with
    | settings mem refused =>
      have hload := Settings.loadAll_eq_ok_iff.mpr hw.reads.settings
      obtain ⟨d, hd⟩ := Settings.loads_of_loadAll hload _ mem
      exact hd.not_refused refused
    | unread read => cases hw.reads.source.symm.trans read
    | line reads mem error =>
      obtain ⟨f, hf⟩ := Assembly.exists_outcome_eq_error mem error
      exact hw.error_ne_source none f ((failsAt_iff none).mp ⟨_, _, reads, hf⟩)
    | overwrites same => cases hw.apart.symm.trans (FileTree.same_eq_true_iff.mpr same)

theorem Hindered.run (h : Hindered t r) :
    (r.run t mishap?).tree = t ∧ (r.run t mishap?).error? ≠ none := by
  obtain ⟨e, he⟩ := h.exists_fails
  obtain ⟨htree, herror⟩ := he.run mishap?
  exact ⟨htree, by simp [herror]⟩

theorem exists_writes_of_not_hindered (h : ¬ Hindered t r) :
    ∃ tables src p, Writes t r tables src p := by
  rcases fails_or_writes t r with ⟨e, hf⟩ | hw
  · exact absurd hf.hindered h
  · exact hw

theorem Result.exitStatus_failure? (done : Result) :
    exitStatus done.failure? = (done.error?.map RunError.status).getD 0 := by
  unfold Result.failure?
  cases done.error? with
  | none => rfl
  | some e => exact e.exitStatus_diagnostic

theorem run_status (t : FileTree) (r : Request) :
    (exitStatus (r.run t mishap?).failure? = 0 ↔ (r.run t mishap?).error? = none) ∧
      (∀ e, FailsAt t r e → exitStatus (r.run t mishap?).failure? = e.fault.kind.exitStatus) ∧
      ((r.run t mishap?).error? ≠ none → (∀ e, ¬ FailsAt t r e) →
        exitStatus (r.run t mishap?).failure? = 8) := by
  rw [Result.exitStatus_failure?]
  refine ⟨?_, fun e he => ?_, fun hne hs => ?_⟩
  · cases (r.run t mishap?).error? with
    | none => simp
    | some e =>
      have hpos : e.status ≠ 0 := by
        cases e <;> exact Nat.succ_ne_zero _
      simpa using hpos
  · rw [(failsAt_iff mishap?).mp he]
    rfl
  · cases he : (r.run t mishap?).error? with
    | none => exact absurd he hne
    | some e =>
      cases e with
      | source e => exact absurd ((failsAt_iff mishap?).mpr he) (hs e)
      | _ => rfl

end Request

open Request

/-- A run never damages its source, and it changes nothing if something hinders it. Otherwise it
writes the image, which changes at most the file that the path of the image leads to. If the run
succeeds, that file holds the words of the program with their high bytes in front, and if the write
goes wrong, a front part of them. The status says which. -/
theorem run_changes_only_the_image (t : FileTree) (r : Request) (mishap? : Option Mishap) :
    let done := r.run t mishap?
    let status := exitStatus done.failure?
    (∀ (i : Nat) (content : Text), t.find r.source = .ok i → t.nodes[i]? = some (.file content) →
      done.tree.find r.source = .ok i ∧ done.tree.nodes[i]? = some (.file content)) ∧
    (Hindered t r → done.tree = t ∧ done.error? ≠ none) ∧
    (¬ Hindered t r → ∃ tables src p, Reads t r tables src ∧
      (r.assembly tables src).outcome = .ok p ∧
      let written := t.write mishap? r.outputPath p.image
      done.tree = written.1 ∧ done.error? = written.2.map (.unwritten r.outputPath)) ∧
    (done.tree = t ∨ ∃ k, done.tree.find r.outputPath = .ok k ∧ t.AlikeBut k done.tree) ∧
    (∀ path content : Text,
      (∀ i, done.tree.find path = .ok i → done.tree.find r.outputPath ≠ .ok i) →
      (done.tree.read path = .ok content ↔ t.read path = .ok content)) ∧
    (done.error? = none → ∃ tables src p k, Reads t r tables src ∧
      (r.assembly tables src).outcome = .ok p ∧ done.tree.find r.outputPath = .ok k ∧
      ∀ content, done.tree.nodes[k]? = some (.file content) →
        p.BigEndian content ∧ content.length = 2 * (Source.instructions src).length) ∧
    (done.error? ≠ none → done.tree = t ∨ ∃ tables src p k e, Reads t r tables src ∧
      (r.assembly tables src).outcome = .ok p ∧
      done.error? = some (.unwritten r.outputPath e) ∧ e.operation ≠ .opening ∧
      done.tree.find r.outputPath = .ok k ∧
      ∀ content, done.tree.nodes[k]? = some (.file content) → content <+: p.image) ∧
    (status = 0 ↔ done.error? = none) ∧
    (2 ≤ status ∧ status ≤ 7 ↔ ∃ e, FailsAt t r e) ∧
    (∀ e, FailsAt t r e → status = e.fault.kind.exitStatus) ∧
    (status = 8 ↔ done.error? ≠ none ∧ ¬ ∃ e, FailsAt t r e) := by
  intro done status
  obtain ⟨hzero, hline, height⟩ := run_status mishap? t r
  have hseven : ∀ e, FailsAt t r e → 2 ≤ status ∧ status ≤ 7 := by
    intro e he
    rw [show status = _ from hline e he]
    exact Kind.exitStatus_le_seven e.fault.kind_ne_fileError
  refine ⟨fun i content => source_unchanged mishap?, fun h => h.run mishap?, fun h => ?_, ?_,
    fun path content => read_iff mishap?, written_image mishap?, cut_image mishap?, hzero,
    ⟨fun hs => ?_, ?_⟩, hline, ?_, ?_⟩
  · obtain ⟨tables, src, p, hw⟩ := exists_writes_of_not_hindered h
    exact ⟨tables, src, p, hw.reads, hw.outcome, hw.run mishap?⟩
  · rcases run_change mishap? t r with ht | ⟨k, hk, ha, -⟩
    · exact .inl ht
    · exact .inr ⟨k, hk, ha⟩
  · by_contra hn
    have he : done.error? ≠ none := fun he => by
      have hs : status = 0 := hzero.mpr he
      omega
    have hs : status = 8 := height he fun e he => hn ⟨e, he⟩
    omega
  · rintro ⟨e, he⟩
    exact hseven e he
  · intro hs
    refine ⟨fun he => ?_, fun ⟨e, he⟩ => ?_⟩
    · have hs : status = 0 := hzero.mpr he
      omega
    · have hs := hseven e he
      omega
  · rintro ⟨he, hn⟩
    exact height he fun e he => hn ⟨e, he⟩

/-- The image would go through a link and a second name over the source; under another name it is
written, and the source still reads the same through that link. A file that stops taking bytes is
left with the first one. -/
theorem run_changes_only_the_image_alias :
    let t := ((FileTree.empty.putFile "a.asm" "push 1\nadd\n").putName "b.asm" "a.asm").putLink
      "a.bin" "b.asm"
    let refused : Request := { source := "./a.asm", verbose := true }
    let accepted : Request := { source := "a.asm", output := "../c.bin" }
    let crowded : Mishap := .writing 1 .noSpace
    (Hindered t refused ∧ (refused.run t).tree = t ∧
      (refused.run t).error? ≠ none) ∧
    (accepted.run t).error? = none ∧
      (∃ k, (accepted.run t).tree.find "../c.bin" = .ok k) ∧
      ((accepted.run t).tree.read "a.bin" = .ok "push 1\nadd\n" ↔
        t.read "a.bin" = .ok "push 1\nadd\n") ∧
    (accepted.run t (some crowded)).tree.read "../c.bin" = .ok [128] ∧
      ∃ e, (accepted.run t (some crowded)).error? = some (.unwritten "../c.bin" e) ∧
        e.operation ≠ .opening := by
  intro t refused accepted crowded
  have hindered : Hindered t refused :=
    .overwrites (FileTree.same_eq_true_iff.mp (by decide +kernel))
  have hnone : (accepted.run t).error? = none := by
    decide +kernel
  have hfailed : (accepted.run t (some crowded)).error? ≠ none := by
    decide +kernel
  have hchanged : (accepted.run t (some crowded)).tree ≠ t := by
    decide +kernel
  obtain ⟨-, hrefused, -⟩ := run_changes_only_the_image t refused none
  obtain ⟨-, -, -, -, hread, hwritten, -⟩ := run_changes_only_the_image t accepted none
  obtain ⟨-, -, -, -, -, -, hcut, -⟩ := run_changes_only_the_image t accepted (some crowded)
  obtain ⟨tables, src, p, k, -, -, hk, -⟩ := hwritten hnone
  obtain ⟨-, -, -, -, e, -, -, he, hop, -⟩ := (hcut hfailed).resolve_left hchanged
  refine ⟨⟨hindered, hrefused hindered⟩, hnone, ⟨k, hk⟩, hread _ _ ?_,
    by decide +kernel, e, he, hop⟩
  have hbin : (accepted.run t).tree.find "a.bin" = .ok 6 := by
    decide +kernel
  have hout : (accepted.run t).tree.find accepted.outputPath = .ok 8 := by
    decide +kernel
  rintro i hi hj
  cases hi.symm.trans hbin
  cases hj.symm.trans hout

end B100
