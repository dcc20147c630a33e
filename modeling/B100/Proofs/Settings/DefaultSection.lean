import B100.Proofs.Settings.Placement
import B100.Proofs.Text.LetterCase

/-! # The default section

The default section can be opened by a header in any letter case, and its keys do not tell which.
But its name in capitals makes a section apart, which comes after the other in the document. So an
entry under that header wins over all entries for its key that stand under other spellings, even if
they come later in the file.
-/

namespace B100

open Text

def IsDefaultName (name : Text) : Prop := SameLetters name Document.defaultName

instance (name : Text) : Decidable (IsDefaultName name) :=
  inferInstanceAs (Decidable (SameLetters ..))

theorem IsDefaultName.isHeaderName {name : Text} (h : IsDefaultName name) : IsHeaderName name where
  nonempty := by
    rintro rfl
    cases h
  newline_notMem := SameLetters.notMem h.symm (by decide) (by decide)

namespace Header

/-- The section that a header in capitals opens, and that of all others. -/
def defaultPlace : Bool → Text
  | true => "DEFAULT"
  | false => Document.defaultName

def isCapital (h : Option (Header IsDefaultName)) : Bool := h.any (·.name == defaultPlace true)

theorem lower_defaultPlace (capital : Bool) :
    (defaultPlace capital).lower = Document.defaultName := by
  cases capital <;> decide +kernel

theorem defaultPlace_inj {a b : Bool} : defaultPlace a = defaultPlace b ↔ a = b := by
  cases a <;> cases b <;> decide

theorem place_eq_defaultPlace (h : Option (Header IsDefaultName)) :
    place h = defaultPlace (isCapital h) := by
  cases h with
  | none => rfl
  | some h =>
    change Document.storedName h.name = defaultPlace (h.name == defaultPlace true)
    unfold Document.storedName
    split
    · next hname =>
      rw [hname]
      rfl
    · next hname =>
      rw [show (h.name == defaultPlace true) = false from beq_eq_false_iff_ne.mpr hname,
        h.valid.lower_eq]
      exact lower_defaultPlace false

end Header

namespace Entry

def IsFor (key : Text) (e : Entry IsDefaultName) : Prop := e.name.lower = key.lower

/-- The entry is for a name, and it stands under a header in capitals or not. -/
def IsUnder (capital : Bool) (key : Text) (e : Entry IsDefaultName) : Prop :=
  Header.isCapital e.header = capital ∧ e.IsFor key

variable {key : Text} {es : List (Entry IsDefaultName)}

instance : DecidablePred (IsFor key) := fun _ => inferInstanceAs (Decidable (_ = _))

instance (capital : Bool) : DecidablePred (IsUnder capital key) := fun _ =>
  inferInstanceAs (Decidable (_ ∧ _))

theorem last_isAt (capital : Bool) (key : Text) (es : List (Entry IsDefaultName)) :
    last (·.IsAt (Header.defaultPlace capital) key.lower) es = last (IsUnder capital key) es := by
  simp only [last, IsAt, Header.place_eq_defaultPlace, Header.defaultPlace_inj]
  rfl

theorem last_isUnder_false (h : last (IsUnder true key) es = none) :
    last (IsUnder false key) es = last (IsFor key) es := by
  unfold last at h ⊢
  rw [Option.map_eq_none_iff, List.getLast?_eq_none_iff, List.filter_eq_nil_iff] at h
  congr 2
  apply List.filter_congr
  intro e he
  have hcapital := h e he
  rw [decide_eq_true_eq] at hcapital
  rw [decide_eq_decide, IsUnder]
  refine and_iff_right_of_imp fun hfor => ?_
  rw [← Bool.not_eq_true]
  exact fun hc => hcapital ⟨hc, hfor⟩

end Entry

namespace Document

variable {d : Document} {es : List (Entry IsDefaultName)}

theorem Gathers.getLast?_entries (h : d.Gathers es) {s : Section} (hs : s ∈ d) (name : Text) :
    (s.entries.filter (·.1 = name)).getLast?.map Prod.snd =
      Entry.last (·.IsAt s.name name) es := by
  have hentry : ∀ entry ∈ s.entries.filter (·.1 = name),
      Entry.last (·.IsAt s.name name) es = some entry.2 := by
    intro entry he
    obtain ⟨he, hname⟩ := List.mem_filter.mp he
    rw [← decide_eq_true_eq.mp hname]
    exact (h.records s.name entry).mp ⟨s, hs, rfl, he⟩
  cases hlast : (s.entries.filter (·.1 = name)).getLast? with
  | some entry => exact (hentry entry (List.mem_of_getLast? hlast)).symm
  | none =>
    rw [List.getLast?_eq_none_iff, List.filter_eq_nil_iff] at hlast
    rw [Option.map_none, eq_comm, Option.eq_none_iff_forall_ne_some]
    intro value hvalue
    -- The section that holds the entry is this one, since no other has its name.
    obtain ⟨t, ht, hname, he⟩ := (h.records s.name (name, value)).mpr hvalue
    obtain rfl := List.inj_on_of_nodup_map h.nodup ht hs hname
    exact hlast (name, value) he (by simp)

/-- A default section binds the keys of its entries, which do not tell the section. -/
theorem getLast?_bindings_of_isDefault {s : Section} (hdefault : s.isDefault = true)
    (hplain : ∀ entry ∈ s.entries, entry.1.lower = entry.1 ∧ IsPlain entry.2) (key : Text) :
    ((s.entries.map fun entry => (s.keyStem ++ entry.1, d.expanded s entry)).filter
      (·.1.lower = lower ("$conf." ++ key))).getLast?.map Prod.snd =
        (s.entries.filter (·.1 = key.lower)).getLast?.map Prod.snd := by
  have hstem : s.keyStem = utf8 "$conf." := if_pos hdefault
  have hconf : Visible "$conf." := by decide
  have hbindings : (s.entries.map fun entry => (s.keyStem ++ entry.1, d.expanded s entry)) =
      s.entries.map fun entry => (utf8 "$conf." ++ entry.1, entry.2) := by
    apply List.map_congr_left
    intro entry he
    rw [hstem, expanded_of_isPlain (hplain entry he).2]
  have hfilter : s.entries.filter ((fun b : Text × Text => decide (b.1.lower =
      lower ("$conf." ++ key))) ∘ fun entry => (utf8 "$conf." ++ entry.1, entry.2)) =
      s.entries.filter (·.1 = key.lower) := by
    apply List.filter_congr
    intro entry he
    simp only [Function.comp_apply, lower_append_ascii hconf.ascii, List.append_cancel_left_eq,
      (hplain entry he).1]
  rw [hbindings, List.filter_map, hfilter, List.getLast?_map, Option.map_map]
  rfl

theorem Gathers.exists_place (h : d.Gathers es) {n : Text} (hn : n ∈ d.names) :
    ∃ capital, n = Header.defaultPlace capital := by
  obtain ⟨header, rfl⟩ := h.sections n hn
  exact ⟨_, Header.place_eq_defaultPlace header⟩

/-- A file with default sections only has one or two of them, and that of the capitals is last. -/
theorem Gathers.names_eq (h : d.Gathers es) :
    d.names = [Header.defaultPlace false] ∨
      d.names = [Header.defaultPlace false, Header.defaultPlace true] := by
  obtain ⟨rest, hnames⟩ := List.head?_eq_some_iff.mp h.first
  have hnodup := h.nodup
  rw [hnames, List.nodup_cons] at hnodup
  have hrest : ∀ n ∈ rest, n = Header.defaultPlace true := by
    intro n hn
    obtain ⟨capital, rfl⟩ := h.exists_place (hnames ▸ List.mem_cons_of_mem _ hn)
    cases capital with
    | true => rfl
    | false => exact absurd hn hnodup.1
  obtain ⟨k, rfl⟩ : ∃ k, rest = List.replicate k (Header.defaultPlace true) :=
    ⟨_, List.eq_replicate_of_mem hrest⟩
  rw [hnames]
  cases Nat.le_one_iff_eq_zero_or_eq_one.mp (List.nodup_replicate.mp hnodup.2) with
  | inl hk => exact .inl (hk ▸ rfl)
  | inr hk => exact .inr (hk ▸ rfl)

theorem Gathers.getLast?_bindings (h : d.Gathers es) {s : Section} (hs : s ∈ d) {capital : Bool}
    (hname : s.name = Header.defaultPlace capital) (key : Text) :
    ((s.entries.map fun entry => (s.keyStem ++ entry.1, d.expanded s entry)).filter
      (·.1.lower = lower ("$conf." ++ key))).getLast?.map Prod.snd =
        Entry.last (Entry.IsUnder capital key) es := by
  have hdefault : s.isDefault = true := by
    rw [Section.isDefault, hname, Header.lower_defaultPlace, beq_self_eq_true]
  have hentries : ∀ entry ∈ s.entries, entry.1.lower = entry.1 ∧ IsPlain entry.2 := by
    rintro ⟨name, value⟩ he
    obtain ⟨e, ⟨-, rfl⟩, rfl⟩ := h.exists_entry ⟨s, hs, rfl, he⟩
    exact ⟨lower_lower _, e.isPlain⟩
  rw [getLast?_bindings_of_isDefault hdefault hentries, h.getLast?_entries hs, hname,
    Entry.last_isAt]

/-- The section of the capitals answers before the other. -/
theorem Gathers.lookup (h : d.Gathers es) :
    ∃ v, d.settings = .ok v ∧ ∀ key, v.lookup ("$conf." ++ key) =
      (Entry.last (Entry.IsUnder true key) es).or (Entry.last (Entry.IsUnder false key) es) := by
  have hvalid : d.Valid := h.valid fun n hn => by
    obtain ⟨capital, rfl⟩ := h.exists_place hn
    exact .inl (Header.lower_defaultPlace capital)
  refine ⟨_, settings_eq_ok_iff.mpr ⟨hvalid, rfl⟩, fun key => ?_⟩
  rw [Settings.lookup_setAll, bindings]
  rcases h.names_eq with hnames | hnames
  · obtain ⟨s, rfl, hs⟩ := List.map_eq_singleton_iff.mp hnames
    have hnone : Entry.last (Entry.IsUnder true key) es = none := by
      rw [Option.eq_none_iff_forall_ne_some, ← Entry.last_isAt]
      intro value hvalue
      obtain ⟨t, ht, hname, -⟩ := (h.records _ (key.lower, value)).mpr hvalue
      rw [List.mem_singleton.mp ht, hs, Header.defaultPlace_inj] at hname
      cases hname
    rw [hnone, Option.none_or, ← h.getLast?_bindings List.mem_cons_self hs,
      List.flatMap_singleton]
  · obtain ⟨s, rest, rfl, hs, hrest⟩ := List.map_eq_cons_iff.mp hnames
    obtain ⟨t, rfl, ht⟩ := List.map_eq_singleton_iff.mp hrest
    rw [← h.getLast?_bindings List.mem_cons_self hs,
      ← h.getLast?_bindings (List.mem_cons_of_mem s List.mem_cons_self) ht,
      List.flatMap_cons, List.flatMap_singleton, List.filter_append, List.getLast?_append,
      Option.map_or]

end Document

/-- Among the entries of the default section, those under its name in capitals win. All spellings of
the name share their keys, and a file with no other section is always read, but the last entry for a
key counts only if no entry under the capitals says otherwise. -/
theorem capitals_win_in_the_default_section (ls : List (PlainLine IsDefaultName)) :
    let es := PlainLine.entries ls
    ∃ v, Settings.parse (Source.join (ls.map PlainLine.text)) = .ok v ∧
      ∀ key, v.lookup ("$conf." ++ key) =
          (Entry.last (Entry.IsUnder true key) es).or (Entry.last (Entry.IsUnder false key) es) ∧
        (v.lookup ("$conf." ++ key) = Entry.last (Entry.IsFor key) es ↔
          ∀ value, Entry.last (Entry.IsUnder true key) es = some value →
            Entry.last (Entry.IsFor key) es = some value) := by
  intro es
  obtain ⟨d, hread, hgathers⟩ := PlainLine.read (fun _ hname => hname.isHeaderName) ls
  obtain ⟨v, hsettings, hlookup⟩ := hgathers.lookup
  rw [Settings.parse, hread]
  refine ⟨v, hsettings, fun key => ⟨hlookup key, ?_⟩⟩
  rw [hlookup]
  cases hcapital : Entry.last (Entry.IsUnder true key) es with
  | none =>
    rw [Option.none_or, Entry.last_isUnder_false hcapital]
    exact iff_of_true rfl nofun
  | some value =>
    rw [Option.some_or, eq_comm]
    constructor
    · rintro h _ ⟨rfl⟩
      exact h
    · intro h
      exact h value rfl

def capitalsFirst : List (PlainLine IsDefaultName) := [
  .header ⟨"DEFAULT", by decide⟩,
  .entry "a" "1" (by decide) (by decide),
  .header ⟨"default", by decide⟩,
  .entry "a" "2" (by decide) (by decide),
  .remark "" ⟨by decide, "", "", rfl, by decide, by decide +kernel⟩]

/-- In any other section the later entry wins. -/
theorem capitals_win_over_a_later_entry :
    Source.join (capitalsFirst.map PlainLine.text) = "[DEFAULT]\na = 1\n[default]\na = 2\n" ∧
      Entry.last (Entry.IsFor "a") (PlainLine.entries capitalsFirst) = some (utf8 "2") ∧
      (Settings.parse "[DEFAULT]\na = 1\n[default]\na = 2\n").map (·.lookup "$conf.a") =
        .ok (some (utf8 "1")) ∧
      (Settings.parse "[IO]\na = 1\n[io]\na = 2\n").map (·.lookup "$conf.io.a") =
        .ok (some (utf8 "2")) :=
  ⟨by decide, by decide +kernel, rfl, rfl⟩

end B100
