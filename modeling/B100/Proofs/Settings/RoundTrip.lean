import B100.Proofs.Settings.Placement

/-! # Settings are read back as they were written

A list of entries can be written in many ways: sections may be closed and opened again, in any
spelling, and blank lines and comments may stand anywhere. All of them are read as the same
settings, in which the last entry for a key counts.
-/

namespace B100

open Text

open Source (newline)

/-- The name of a section that is not the default section. -/
def IsSectionWord (name : Text) : Prop :=
  Operand.isWord name = true ∧ name.lower ≠ Document.defaultName

instance (name : Text) : Decidable (IsSectionWord name) := inferInstanceAs (Decidable (_ ∧ _))

namespace IsSectionWord

variable {name : Text}

theorem isHeaderName (h : IsSectionWord name) : IsHeaderName name :=
  have hplain := IsPlain.of_isWord h.1
  ⟨hplain.nonempty, hplain.visible.clean.newline_notMem⟩

theorem storedName_eq (h : IsSectionWord name) : Document.storedName name = name.lower := by
  rw [Document.storedName, if_neg]
  rintro rfl
  exact h.2 (by decide +kernel)

end IsSectionWord

theorem Header.place_eq (h : Option (Header IsSectionWord)) :
    place h = (h.map (·.name.lower)).getD Document.defaultName := by
  cases h with
  | none => rfl
  | some h => exact h.valid.storedName_eq

namespace Entry

def sectionName {P : Text → Prop} (e : Entry P) : Option Text := e.header.map Header.name

def line {P : Text → Prop} (e : Entry P) : PlainLine P := .entry e.name e.value e.isWord e.isPlain

def key (e : Entry IsSectionWord) : Text :=
  match e.sectionName with
  | none => "$conf." ++ e.name.lower
  | some s => "$conf." ++ s.lower ++ "." ++ e.name.lower

/-- The entries differ at most in the case of their sections. -/
structure Agrees {P : Text → Prop} (e f : Entry P) : Prop where
  sectionName : e.sectionName.map lower = f.sectionName.map lower
  name : e.name = f.name
  value : e.value = f.value

variable {e f : Entry IsSectionWord}

theorem place_header (e : Entry IsSectionWord) :
    Header.place e.header = (e.sectionName.map lower).getD Document.defaultName := by
  rw [Header.place_eq, sectionName, Option.map_map]
  rfl

theorem isSectionWord {s : Text} (h : e.sectionName = some s) : IsSectionWord s := by
  obtain ⟨header, -, rfl⟩ := Option.map_eq_some_iff.mp h
  exact header.valid

theorem place_eq_iff : Header.place e.header = Header.place f.header ↔
    e.sectionName.map lower = f.sectionName.map lower := by
  rw [place_header, place_header]
  constructor
  · cases he : e.sectionName with
    | none =>
      cases hf : f.sectionName with
      | none => exact fun _ => rfl
      | some t => exact fun h => absurd h.symm (isSectionWord hf).2
    | some s =>
      cases hf : f.sectionName with
      | none => exact fun h => absurd h (isSectionWord he).2
      | some t => exact fun h => congrArg some h
  · intro h
    rw [h]

theorem key_of_none (h : e.sectionName = none) :
    e.key = "$conf" ++ '.'.toUInt8 :: e.name.lower := by
  rw [key, h]
  rfl

theorem key_of_some {s : Text} (h : e.sectionName = some s) :
    e.key = "$conf" ++ '.'.toUInt8 :: (s.lower ++ '.'.toUInt8 :: e.name.lower) := by
  rw [key, h]
  dsimp only
  rw [List.append_assoc, List.append_assoc]
  rfl

/-- The names in a key can be told apart. -/
theorem splitOn_key (e : Entry IsSectionWord) : e.key.splitOn '.'.toUInt8 =
    utf8 "$conf" :: ((e.sectionName.map lower).toList ++ [e.name.lower]) := by
  have hsplit : ∀ {s : Text}, Operand.isWord s = true → s.lower.splitOn '.'.toUInt8 = [s.lower] :=
    fun hs => List.splitOn_eq_singleton
      ((IsPlain.of_isWord (Operand.isWord_lower hs)).notMem (by decide))
  have hconf : List.splitOn '.'.toUInt8 (utf8 "$conf") = [utf8 "$conf"] := by decide
  cases hs : e.sectionName with
  | none =>
    rw [key_of_none hs, List.splitOn_append_cons_self, hconf, hsplit e.isWord]
    rfl
  | some s =>
    rw [key_of_some hs, List.splitOn_append_cons_self, List.splitOn_append_cons_self, hconf,
      hsplit (isSectionWord hs).1, hsplit e.isWord]
    rfl

theorem key_eq_iff : e.key = f.key ↔
    e.sectionName.map lower = f.sectionName.map lower ∧ e.name.lower = f.name.lower := by
  constructor
  · intro h
    have hnames := congrArg (List.splitOn '.'.toUInt8) h
    rw [splitOn_key, splitOn_key, List.cons_inj_right, List.append_singleton_inj] at hnames
    have hsection := congrArg List.head? hnames.1
    rw [Option.head?_toList, Option.head?_toList] at hsection
    exact ⟨hsection, hnames.2⟩
  · rintro ⟨hs, hn⟩
    cases he : e.sectionName with
    | none =>
      rw [he, Option.map_none, eq_comm, Option.map_eq_none_iff] at hs
      rw [key_of_none he, key_of_none hs, hn]
    | some s =>
      rw [he, Option.map_some, eq_comm, Option.map_eq_some_iff] at hs
      obtain ⟨t, hf, hlower⟩ := hs
      rw [key_of_some he, key_of_some hf, hn, hlower]

theorem isAt_iff : f.IsAt (Header.place e.header) e.name.lower ↔ f.key = e.key := by
  rw [IsAt, place_eq_iff, key_eq_iff]

theorem lower_key (e : Entry IsSectionWord) : e.key.lower = e.key := by
  have hdot : ∀ s t : Text, (s ++ '.'.toUInt8 :: t).lower = s.lower ++ '.'.toUInt8 :: t.lower :=
    lower_append_cons (by decide) (by decide)
  have hconf : lower "$conf" = "$conf" := by decide
  cases hs : e.sectionName with
  | none => rw [key_of_none hs, hdot, hconf, lower_lower]
  | some s => rw [key_of_some hs, hdot, hdot, hconf, lower_lower, lower_lower]

theorem keyStem_append {s : Section} (h : s.name = Header.place e.header) :
    s.keyStem ++ e.name.lower = e.key := by
  unfold Section.keyStem Section.isDefault
  rw [h, place_header]
  cases hs : e.sectionName with
  | none =>
    have hdefault : (lower Document.defaultName == Document.defaultName) = true := by decide +kernel
    rw [Option.map_none, Option.getD_none, if_pos hdefault, key, hs]
  | some t =>
    have hother : ¬ (t.lower.lower == Document.defaultName) = true := by
      rw [lower_lower, beq_iff_eq]
      exact (isSectionWord hs).2
    rw [Option.map_some, Option.getD_some, if_neg hother, key, hs]

theorem Agrees.key_eq (h : Agrees e f) : e.key = f.key := by
  rw [key_eq_iff, h.name]
  exact ⟨h.sectionName, rfl⟩

theorem last_eq_of_forall₂ {es fs : List (Entry IsSectionWord)} (h : List.Forall₂ Agrees es fs)
    (key : Text) : last (·.key = key) es = last (·.key = key) fs := by
  have hvalues : ∀ es : List (Entry IsSectionWord), last (·.key = key) es =
      ((es.map fun e => (e.key, e.value)).filter (·.1 = key)).getLast?.map Prod.snd := by
    intro es
    rw [List.filter_map, List.getLast?_map, Option.map_map]
    rfl
  have hmap : es.map (fun e => (e.key, e.value)) = fs.map fun e => (e.key, e.value) := by
    induction h with
    | nil => rfl
    | cons hagrees _ ih => rw [List.map_cons, List.map_cons, hagrees.key_eq, hagrees.value, ih]
  rw [hvalues, hvalues, hmap]

end Entry

/-- The lines are a way to write the entries. -/
def Written {P : Text → Prop} (ls : List (PlainLine P)) (es : List (Entry P)) : Prop :=
  List.Forall₂ Entry.Agrees (PlainLine.entries ls) es

/-- The lines of entries, with a header wherever the section changes. -/
def render {P : Text → Prop} : Option (Header P) → List (Entry P) → List (PlainLine P)
  | _, [] => []
  | current, e :: es =>
    if e.sectionName.map lower = current.map (·.name.lower) then e.line :: render current es
    else (e.header.map .header).toList ++ e.line :: render e.header es

/-- Entries without a section can be written only before the others. -/
theorem entriesFrom_render {P : Text → Prop} {current : Option (Header P)} {es : List (Entry P)}
    (hcurrent : current ≠ none → ∀ e ∈ es, e.sectionName ≠ none)
    (hes : es.Pairwise fun e f => f.sectionName = none → e.sectionName = none) :
    List.Forall₂ Entry.Agrees (PlainLine.entriesFrom current (render current es)) es := by
  induction es generalizing current with
  | nil => exact .nil
  | cons e es ih =>
    rw [List.pairwise_cons] at hes
    have hrest : current ≠ none → ∀ f ∈ es, f.sectionName ≠ none := fun hc f hf =>
      hcurrent hc f (List.mem_cons_of_mem e hf)
    unfold render
    split
    · next he =>
      refine .cons ⟨?_, rfl, rfl⟩ (ih hrest hes.2)
      rw [he, Entry.sectionName, Option.map_map]
      rfl
    · next he =>
      cases hs : e.header with
      | none =>
        have hnone : e.sectionName = none := by rw [Entry.sectionName, hs, Option.map_none]
        have hc : current = none := by
          by_contra hc
          exact hcurrent hc e List.mem_cons_self hnone
        rw [hnone, hc] at he
        exact absurd rfl he
      | some header =>
        have hopened : ∀ f ∈ es, f.sectionName ≠ none := fun f hf hnone => by
          have he := hes.1 f hf hnone
          rw [Entry.sectionName, hs] at he
          cases he
        refine .cons ⟨?_, rfl, rfl⟩ (ih (fun _ => hopened) hes.2)
        rw [Entry.sectionName, Entry.sectionName, hs]

namespace Document

variable {d : Document} {es : List (Entry IsSectionWord)}

theorem Gathers.settings (h : d.Gathers es) :
    ∃ v, d.settings = .ok v ∧ ∀ key, v[key]? = Entry.last (·.key = key) es := by
  have hlast : ∀ e : Entry IsSectionWord,
      Entry.last (·.IsAt (Header.place e.header) e.name.lower) es =
        Entry.last (·.key = e.key) es := by
    intro e
    simp only [Entry.last, Entry.isAt_iff]
  have hvalid : d.Valid := by
    refine h.valid fun n hn => ?_
    obtain ⟨header, rfl⟩ := h.sections n hn
    rw [Header.place_eq]
    cases header with
    | none => exact .inl (by decide +kernel)
    | some header => exact .inr (Operand.isWord_lower header.valid.1)
  have hsettings : d.settings = .ok (Settings.setAll ∅ d.bindings) :=
    settings_eq_ok_iff.mpr ⟨hvalid, rfl⟩
  have hsound : ∀ {key value}, (Settings.setAll ∅ d.bindings)[key]? = some value →
      Entry.last (·.key = key) es = some value := by
    intro key value hv
    obtain ⟨b, hb, rfl, rfl⟩ := exists_binding hsettings hv
    obtain ⟨s, hs, ⟨name, value⟩, he, rfl⟩ := mem_bindings.mp hb
    have hrecord := (h.records s.name (name, value)).mp ⟨s, hs, rfl, he⟩
    obtain ⟨e, ⟨hplace, rfl⟩, rfl⟩ := Entry.exists_of_last_eq_some hrecord
    rw [← hplace, hlast] at hrecord
    rw [Entry.keyStem_append hplace.symm, e.lower_key, expanded_of_isPlain e.isPlain, hrecord]
  refine ⟨_, hsettings, fun key => Option.ext fun value => ⟨hsound, fun hvalue => ?_⟩⟩
  obtain ⟨e, rfl, rfl⟩ := Entry.exists_of_last_eq_some hvalue
  have hrecord := (h.records _ (e.name.lower, e.value)).mpr ((hlast e).trans hvalue)
  obtain ⟨s, hs, hname, hmem⟩ := hrecord
  have hb : (e.key, e.value) ∈ d.bindings := by
    rw [← Entry.keyStem_append hname]
    exact mem_bindings.mpr ⟨s, hs, _, hmem, by rw [expanded_of_isPlain e.isPlain]⟩
  obtain ⟨value, hv⟩ := exists_value_of_mem_bindings hsettings hb
  rw [e.lower_key] at hv
  rw [hv, ← hsound hv, hvalue]

end Document

/-- Settings are read back as they were written. Entries can be written whenever those without a
section come first; a line feed at the end is an empty last line. The settings bind the keys of the
entries and no others, each to the value of the last entry for it, and entries share a key only if
they agree in section and name but for case. -/
theorem written_settings_are_read_back (es : List (Entry IsSectionWord)) :
    ((es.Pairwise fun e f => f.sectionName = none → e.sectionName = none) →
      Written (render none es) es) ∧
    (∀ ls : List (PlainLine IsSectionWord), Written ls es →
      ∃ v, Settings.parse (Source.join (ls.map PlainLine.text)) = .ok v ∧
        ∀ key, v[key]? = Entry.last (·.key = key) es) ∧
    ∀ e f : Entry IsSectionWord, e.key = f.key ↔
      e.sectionName.map lower = f.sectionName.map lower ∧ e.name.lower = f.name.lower := by
  refine ⟨entriesFrom_render (absurd rfl), fun ls h => ?_, fun e f => Entry.key_eq_iff⟩
  obtain ⟨d, hread, hgathers⟩ := PlainLine.read (fun _ hname => hname.isHeaderName) ls
  rw [Settings.parse, hread]
  obtain ⟨v, hsettings, hv⟩ := hgathers.settings
  refine ⟨v, hsettings, fun key => ?_⟩
  rw [hv, Entry.last_eq_of_forall₂ h]

theorem written_settings_are_read_back_reopened :
    ∃ v, Settings.parse ("Gain = 9\n\n; devices\n[IO]\nUart = -1\n[Net]\nport = 0x7\n" ++
        "  # again\n[io]\nUART = +3\n") = .ok v ∧
      v[utf8 "$conf.io.uart"]? = some (utf8 "+3") ∧ v[utf8 "$conf.net.port"]? = some (utf8 "0x7") ∧
      v[utf8 "$conf.gain"]? = some (utf8 "9") ∧ v[utf8 "$conf.uart"]? = none := by
  let es : List (Entry IsSectionWord) := [
    ⟨none, "Gain", "9", by decide, by decide⟩,
    ⟨some ⟨"io", by decide⟩, "Uart", "-1", by decide, by decide⟩,
    ⟨some ⟨"Net", by decide⟩, "port", "0x7", by decide, by decide⟩,
    ⟨some ⟨"IO", by decide⟩, "UART", "+3", by decide, by decide⟩]
  let ls : List (PlainLine IsSectionWord) := [
    .entry "Gain" "9" (by decide) (by decide),
    .remark "" ⟨by decide, "", "", rfl, by decide, by decide +kernel⟩,
    .remark "; devices" ⟨by decide, "", "; devices", rfl, by decide, by decide +kernel⟩,
    .header ⟨"IO", by decide⟩,
    .entry "Uart" "-1" (by decide) (by decide),
    .header ⟨"Net", by decide⟩,
    .entry "port" "0x7" (by decide) (by decide),
    .remark "  # again" ⟨by decide, "  ", "# again", rfl, by decide, by decide +kernel⟩,
    .header ⟨"io", by decide⟩,
    .entry "UART" "+3" (by decide) (by decide),
    .remark "" ⟨by decide, "", "", rfl, by decide, by decide +kernel⟩]
  have hwritten : Written ls es :=
    .cons ⟨rfl, rfl, rfl⟩ <| .cons ⟨by decide, rfl, rfl⟩ <| .cons ⟨rfl, rfl, rfl⟩ <|
      .cons ⟨by decide, rfl, rfl⟩ .nil
  obtain ⟨v, hparse, hv⟩ := (written_settings_are_read_back es).2.1 ls hwritten
  refine ⟨v, hparse, ?_, ?_, ?_, ?_⟩ <;> rw [hv] <;> decide +kernel

end B100
