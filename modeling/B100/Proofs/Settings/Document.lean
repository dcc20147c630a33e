import B100.Proofs.Traversal
import B100.Settings.Parse

/-! # Documents and their settings

A document holds entries in named sections, and adding a section or an entry changes nothing else
about it. It has settings exactly if every name can be part of a key and every entry has a value.
The settings are then its bindings, set one after another.
-/

namespace B100

namespace Settings

def setAll (v : Settings) (bindings : List (Text × Text)) : Settings :=
  bindings.foldl (fun v b => v.set b.1 b.2) v

/-- The last binding of a key in any spelling counts. -/
theorem getElem?_setAll (v : Settings) (bindings : List (Text × Text)) (key : Text) :
    (v.setAll bindings)[key]? =
      ((bindings.filter (·.1.lower = key)).getLast?.map Prod.snd).or v[key]? := by
  induction bindings generalizing v with
  | nil => rfl
  | cons b bs ih =>
    have hset : (v.set b.1 b.2)[key]? = if b.1.lower = key then some b.2 else v[key]? := by
      rw [set, Std.ExtTreeMap.getElem?_insert]
      simp only [Std.LawfulEqCmp.compare_eq_iff_eq]
    rw [setAll, List.foldl_cons]
    refine (ih _).trans ?_
    rw [hset]
    by_cases hb : b.1.lower = key
    · rw [List.filter_cons_of_pos (by simpa using hb), if_pos hb, List.getLast?_cons]
      cases (bs.filter (·.1.lower = key)).getLast? <;> rfl
    · rw [List.filter_cons_of_neg (by simpa using hb), if_neg hb]

theorem lookup_setAll (bindings : List (Text × Text)) (key : Text) :
    (setAll ∅ bindings).lookup key =
      (bindings.filter (·.1.lower = key.lower)).getLast?.map Prod.snd := by
  rw [lookup, getElem?_setAll, Std.ExtTreeMap.getElem?_empty, Option.or_none]

end Settings

namespace Section

variable {s : Section} {name value : Text} {entry : Text × Text}

theorem value?_isSome_iff : (s.value? name).isSome ↔ ∃ e ∈ s.entries, e.1 = name := by
  rw [value?, List.lookup_isSome_iff]
  simp only [beq_iff_eq, @eq_comm _ name]

theorem mem_entries_put :
    entry ∈ (s.put name value).entries ↔
      entry = (name, value) ∨ entry ∈ s.entries ∧ entry.1 ≠ name := by
  unfold put
  split
  · next h =>
    obtain ⟨old, hold, rfl⟩ := value?_isSome_iff.mp h
    simp only [List.mem_map]
    constructor
    · rintro ⟨e, he, rfl⟩
      by_cases hn : e.1 = old.1
      · exact .inl (by simp [hn])
      · exact .inr (by simp [hn, he])
    · rintro (rfl | ⟨he, hn⟩)
      · exact ⟨old, hold, by simp⟩
      · exact ⟨entry, he, by simp [hn]⟩
  · next h =>
    rw [value?_isSome_iff] at h
    simp only [List.mem_append, List.mem_singleton]
    constructor
    · rintro (he | he)
      · exact .inr ⟨he, fun hn => h ⟨entry, he, hn⟩⟩
      · exact .inl he
    · rintro (he | ⟨he, -⟩)
      · exact .inr he
      · exact .inl he

/-- What the keys of a section begin with, whether or not its name is allowed. -/
def keyStem (s : Section) : Text := if s.isDefault then "$conf." else "$conf." ++ s.name ++ "."

/-- The default section needs no name, and any other a name that can be part of a key. -/
def Keyed (s : Section) : Prop := s.isDefault = true ∨ s.name.any isForbiddenInName = false

theorem stem_eq_ok_iff {stem : Text} : s.stem = .ok stem ↔ s.Keyed ∧ stem = s.keyStem := by
  unfold Section.stem keyStem Keyed
  cases s.isDefault <;> cases s.name.any isForbiddenInName <;> simp [eq_comm]

end Section

namespace Document

variable {d : Document} {sectionName name value : Text} {entry : Text × Text}

def names (d : Document) : List Text := d.map Section.name

def Holds (d : Document) (sectionName : Text) (entry : Text × Text) : Prop :=
  ∃ s ∈ d, s.name = sectionName ∧ entry ∈ s.entries

theorem mem_names_addSection {n : Text} :
    n ∈ (d.addSection name).names ↔ n ∈ d.names ∨ n = name := by
  unfold addSection
  split
  · next h =>
    rw [section?, List.find?_isSome] at h
    obtain ⟨s, hs, hn⟩ := h
    constructor
    · exact .inl
    · rintro (hn | rfl)
      · exact hn
      · exact List.mem_map.mpr ⟨s, hs, by simpa using hn⟩
  · simp [names]

@[simp] theorem names_put : (d.put sectionName name value).names = d.names := by
  rw [names, put, List.map_map]
  apply List.map_congr_left
  intro s hs
  rw [Function.comp_apply]
  split <;> rfl

theorem holds_addSection {n : Text} : (d.addSection name).Holds n entry ↔ d.Holds n entry := by
  unfold addSection
  split
  · rfl
  · simp [Holds, or_and_right, exists_or]

theorem holds_put {n : Text} : (d.put sectionName name value).Holds n entry ↔
    (n = sectionName ∧ sectionName ∈ d.names ∧ entry = (name, value)) ∨
      (d.Holds n entry ∧ ¬ (n = sectionName ∧ entry.1 = name)) := by
  simp only [Holds, put, names, List.mem_map]
  constructor
  · rintro ⟨_, ⟨s, hs, rfl⟩, rfl, he⟩
    by_cases hn : s.name = sectionName
    · rw [if_pos hn] at he ⊢
      rcases Section.mem_entries_put.mp he with rfl | ⟨he, hname⟩
      · exact .inl ⟨hn, ⟨s, hs, hn⟩, rfl⟩
      · exact .inr ⟨⟨s, hs, rfl, he⟩, fun h => hname h.2⟩
    · rw [if_neg hn] at he ⊢
      exact .inr ⟨⟨s, hs, rfl, he⟩, fun h => hn h.1⟩
  · rintro (⟨rfl, ⟨s, hs, rfl⟩, rfl⟩ | ⟨⟨s, hs, rfl, he⟩, hother⟩)
    · refine ⟨_, ⟨s, hs, rfl⟩, ?_⟩
      rw [if_pos rfl]
      exact ⟨rfl, Section.mem_entries_put.mpr (.inl rfl)⟩
    · refine ⟨_, ⟨s, hs, rfl⟩, ?_⟩
      split
      · next hn => exact ⟨rfl, Section.mem_entries_put.mpr (.inr ⟨he, fun h => hother ⟨hn, h⟩⟩)⟩
      · exact ⟨rfl, he⟩

def expanded (d : Document) (s : Section) (entry : Text × Text) : Text :=
  (d.expand s entry.1 entry.2).trim

def bindings (d : Document) : List (Text × Text) :=
  d.flatMap fun s => s.entries.map fun entry => (s.keyStem ++ entry.1, d.expanded s entry)

/-- Every name can be part of a key, and every entry has a value. -/
structure Valid (d : Document) : Prop where
  keyed : ∀ s ∈ d, s.Keyed
  entries : ∀ s ∈ d, ∀ entry ∈ s.entries,
    entry.1.any isForbiddenInName = false ∧ d.expanded s entry ≠ []

theorem finalValue_eq_ok_iff {s : Section} : d.finalValue s entry = .ok value ↔
    (entry.1.any isForbiddenInName = false ∧ d.expanded s entry ≠ []) ∧
      value = d.expanded s entry := by
  unfold finalValue
  cases hname : entry.1.any isForbiddenInName with
  | true => simp only [hname, if_true, reduceCtorEq, false_and, Bool.true_eq_false]
  | false =>
    have hvalue : (d.expand s entry.1 entry.2).trim = d.expanded s entry := rfl
    simp only [hname, hvalue, Bool.false_eq_true, if_false, true_and]
    cases d.expanded s entry <;> simp [eq_comm]

theorem addSettings_eq_ok_iff {s : Section} {v v' : Settings} : d.addSettings v s = .ok v' ↔
    (s.Keyed ∧ ∀ entry ∈ s.entries,
      entry.1.any isForbiddenInName = false ∧ d.expanded s entry ≠ []) ∧
      v' = v.setAll (s.entries.map fun entry => (s.keyStem ++ entry.1, d.expanded s entry)) := by
  have hentry : ∀ (stem : Text) (v : Settings) (entry : Text × Text) (v' : Settings),
      (do return v.set (stem ++ entry.1) (← d.finalValue s entry)) = Except.ok v' ↔
        (entry.1.any isForbiddenInName = false ∧ d.expanded s entry ≠ []) ∧
          v' = v.set (stem ++ entry.1) (d.expanded s entry) := by
    intro stem v entry v'
    cases h : d.finalValue s entry with
    | error e =>
      have hno : ¬ (entry.1.any isForbiddenInName = false ∧ d.expanded s entry ≠ []) :=
        fun hyes => by cases h.symm.trans (finalValue_eq_ok_iff.mpr ⟨hyes, rfl⟩)
      simp only [hno, false_and, iff_false]
      exact nofun
    | ok value =>
      obtain ⟨hyes, rfl⟩ := finalValue_eq_ok_iff.mp h
      simp [hyes, bind, Except.bind, pure, Except.pure, eq_comm]
  unfold addSettings
  cases h : s.stem with
  | error e =>
    have hno : ¬ s.Keyed := fun hyes => by
      cases h.symm.trans (Section.stem_eq_ok_iff.mpr ⟨hyes, rfl⟩)
    simp only [hno, false_and, iff_false]
    exact nofun
  | ok stem =>
    obtain ⟨hyes, rfl⟩ := Section.stem_eq_ok_iff.mp h
    simp only [hyes, true_and, Settings.setAll, List.foldl_map]
    exact foldlM_eq_ok_iff (hentry s.keyStem)

/-- The settings of a document are its bindings. -/
theorem settings_eq_ok_iff {v : Settings} :
    d.settings = .ok v ↔ d.Valid ∧ v = Settings.setAll ∅ d.bindings := by
  rw [settings, foldlM_eq_ok_iff (f := d.addSettings) fun _ _ _ => addSettings_eq_ok_iff, bindings,
    Settings.setAll, List.foldl_flatMap]
  refine and_congr_left' ?_
  constructor
  · intro h
    exact ⟨fun s hs => (h s hs).1, fun s hs => (h s hs).2⟩
  · intro h s hs
    exact ⟨h.keyed s hs, h.entries s hs⟩

theorem mem_bindings {b : Text × Text} : b ∈ d.bindings ↔
    ∃ s ∈ d, ∃ entry ∈ s.entries, (s.keyStem ++ entry.1, d.expanded s entry) = b := by
  simp only [bindings, List.mem_flatMap, List.mem_map]

theorem exists_binding {v : Settings} (h : d.settings = .ok v) {key : Text}
    (hv : v[key]? = some value) : ∃ b ∈ d.bindings, b.1.lower = key ∧ b.2 = value := by
  obtain ⟨-, rfl⟩ := settings_eq_ok_iff.mp h
  rw [Settings.getElem?_setAll, Std.ExtTreeMap.getElem?_empty, Option.or_none,
    Option.map_eq_some_iff] at hv
  obtain ⟨b, hb, rfl⟩ := hv
  have hmem := List.mem_filter.mp (List.mem_of_getLast? hb)
  exact ⟨b, hmem.1, by simpa using hmem.2, rfl⟩

theorem exists_value_of_mem_bindings {v : Settings} (h : d.settings = .ok v) {b : Text × Text}
    (hb : b ∈ d.bindings) : ∃ value, v[b.1.lower]? = some value := by
  obtain ⟨-, rfl⟩ := settings_eq_ok_iff.mp h
  have hmem : b ∈ d.bindings.filter (·.1.lower = b.1.lower) :=
    List.mem_filter.mpr ⟨hb, by simp⟩
  rw [Settings.getElem?_setAll, List.getLast?_eq_some_getLast (List.ne_nil_of_mem hmem)]
  exact ⟨_, rfl⟩

end Document

end B100
