import B100.FileTree.Content
import B100.Proofs.Settings.Layers
import B100.Proofs.Text.Trimming
import B100.Tool.CommandLine

/-! # Lists of files

The settings files of a run are given as one text, with commas between them. White space around an
item and parts without an item leave no trace: however a list is written, it is read as its items
in order, and the first of these files that binds a key decides the value.
-/

namespace B100

namespace CommandLine

def comma : UInt8 := ','.toUInt8

/-- What can be an item of a list: no comma is in it, and no white-space character stands at either
end. -/
structure IsItem (s : Text) : Prop where
  nonempty : s ≠ []
  plain : comma ∉ s
  first : ∀ c, isBlankChar c = true → ¬ String.utf8EncodeChar c <+: s
  last : ∀ c, isBlankChar c = true → ¬ String.utf8EncodeChar c <:+ s

/-- What stands between two commas of a list: white space alone, which may be nothing at all, or an
item with white space around it. -/
inductive Segment where
  | blank (space : Text) (hspace : space.IsBlank)
  | item (lead name trail : Text) (hlead : lead.IsBlank) (hname : IsItem name)
    (htrail : trail.IsBlank)

namespace Segment

def text : Segment → Text
  | blank space _ => space
  | item lead name trail .. => lead ++ name ++ trail

def item? : Segment → Option Text
  | blank .. => none
  | item _ name .. => some name

end Segment

def written (parts : List Segment) : Text := [comma].intercalate (parts.map Segment.text)

variable {s : Text} {parts rest : List Segment}

theorem isItem_iff : IsItem s ↔ s ≠ [] ∧ comma ∉ s ∧ s.trim = s := by
  rw [Text.trim_eq_self_iff_not_blank]
  constructor
  · rintro ⟨hne, hplain, hfirst, hlast⟩
    exact ⟨hne, hplain, fun c hc => ⟨hfirst c hc, hlast c hc⟩⟩
  · rintro ⟨hne, hplain, hends⟩
    exact ⟨hne, hplain, fun c hc => (hends c hc).1, fun c hc => (hends c hc).2⟩

instance (s : Text) : Decidable (IsItem s) := decidable_of_iff _ isItem_iff.symm

theorem comma_visible : 0x20 < comma ∧ comma < 0x7F := by decide

theorem glyphs_append_comma (a b : Text) :
    Text.glyphs (a ++ comma :: b) = a.glyphs ++ .char ',' :: b.glyphs :=
  Text.glyphs_append_ascii (by decide) a b

theorem items_append_comma (a b : Text) : items (a ++ comma :: b) = items a ++ items b := by
  have hsplit : List.splitOn ','.toUInt8 (a ++ comma :: b) =
      a.splitOn ','.toUInt8 ++ b.splitOn ','.toUInt8 := List.splitOn_append_cons_self a b
  rw [items, hsplit, List.map_append, List.filter_append]
  rfl

theorem items_of_notMem (h : comma ∉ s) : items s = if s.IsBlank then [] else [s.trim] := by
  have hsplit : s.splitOn ','.toUInt8 = [s] := List.splitOn_eq_singleton h
  rw [items, hsplit]
  by_cases hs : s.trim = []
  · simp [hs, Text.trim_eq_nil_iff.mp hs]
  · simp [hs, mt Text.trim_eq_nil_iff.mpr hs]

/-- What holds of texts without commas, and of two texts with a comma between them if it holds of
both, holds of every text. -/
theorem comma_induction {P : Text → Prop} (plain : ∀ s : Text, comma ∉ s → P s)
    (divided : ∀ a b : Text, P a → P b → P (a ++ comma :: b)) (s : Text) : P s := by
  induction hn : s.length using Nat.strongRecOn generalizing s with
  | ind n ih =>
    rcases Text.notMem_or_exists_last comma s with h | ⟨a, b, rfl, hb⟩
    · exact plain s h
    · -- Behind the last comma nothing is divided any more; the text before it is shorter.
      have hlt : a.length < n := by
        rw [List.length_append, List.length_cons] at hn
        omega
      exact divided a b (ih a.length hlt a rfl) (plain b hb)

theorem isItem_trim (h : comma ∉ s) (hs : ¬ s.IsBlank) : IsItem s.trim :=
  isItem_iff.mpr ⟨mt Text.trim_eq_nil_iff.mp hs, Text.notMem_trim h, Text.trim_trim s⟩

theorem isItem_of_mem_items : ∀ name ∈ items s, IsItem name := by
  induction s using comma_induction with
  | plain s h =>
    rw [items_of_notMem h]
    split
    · nofun
    · next hs => simpa using isItem_trim h hs
  | divided a b ha hb =>
    rw [items_append_comma]
    exact List.forall_mem_append.mpr ⟨ha, hb⟩

theorem items_eq_nil_iff :
    items s = [] ↔ ∀ g ∈ s.glyphs, g = .char ',' ∨ g.isBlank = true := by
  induction s using comma_induction with
  | plain s h =>
    have hglyph : ∀ g ∈ s.glyphs, g ≠ .char ',' := by
      rintro g hg rfl
      exact h ((Text.ofByte_mem_glyphs_iff (by decide)).mp hg)
    have hblank : (∀ g ∈ s.glyphs, g = .char ',' ∨ g.isBlank = true) ↔ s.IsBlank :=
      forall₂_congr fun g hg => or_iff_right (hglyph g hg)
    rw [items_of_notMem h, hblank]
    split <;> next hs => simp [hs]
  | divided a b ha hb =>
    rw [items_append_comma, List.append_eq_nil_iff, ha, hb, glyphs_append_comma,
      List.forall_mem_append, List.forall_mem_cons]
    simp only [true_or, true_and]

namespace Segment

theorem comma_notMem_text (part : Segment) : comma ∉ part.text := by
  cases part with
  | blank space hspace => exact hspace.notMem comma_visible
  | item lead name trail hlead hname htrail =>
    simp only [text, List.mem_append, not_or]
    exact ⟨⟨hlead.notMem comma_visible, hname.plain⟩, htrail.notMem comma_visible⟩

theorem items_text (part : Segment) : items part.text = part.item?.toList := by
  rw [items_of_notMem part.comma_notMem_text]
  cases part with
  | blank space hspace => exact if_pos hspace
  | item lead name trail hlead hname htrail =>
    obtain ⟨hne, -, htrim⟩ := isItem_iff.mp hname
    have htext : (lead ++ name ++ trail).trim = name := by
      rw [Text.trim_surround hlead htrail, htrim]
    have hblank : ¬ (lead ++ name ++ trail).IsBlank := by
      rw [← Text.trim_eq_nil_iff, htext]
      exact hne
    simp only [text, item?, if_neg hblank, htext, Option.toList_some]

theorem exists_text_eq (h : comma ∉ s) : ∃ part : Segment, part.text = s := by
  by_cases hs : s.IsBlank
  · exact ⟨blank s hs, rfl⟩
  · exact ⟨item s.leading s.trim s.trailing s.isBlank_leading (isItem_trim h hs) s.isBlank_trailing,
      s.leading_append_trim_append_trailing⟩

end Segment

theorem written_cons (part : Segment) (h : parts ≠ []) :
    written (part :: parts) = part.text ++ comma :: written parts := by
  rw [written, List.map_cons, List.intercalate_cons_of_ne_nil (by simpa using h)]
  simp [written]

/-- Commas stand only between parts, so two lists meet in one if neither is without any. -/
theorem written_append (hparts : parts ≠ []) (hrest : rest ≠ []) :
    written (parts ++ rest) = written parts ++ comma :: written rest := by
  induction parts with
  | nil => exact absurd rfl hparts
  | cons part parts ih =>
    rw [List.cons_append, written_cons part (by simp [hrest])]
    cases parts with
    | nil => simp [written]
    | cons next parts =>
      rw [ih (by simp), written_cons part (by simp)]
      simp

theorem items_written (parts : List Segment) :
    items (written parts) = parts.filterMap Segment.item? := by
  induction parts with
  | nil => rfl
  | cons part parts ih =>
    have hcons : (part :: parts).filterMap Segment.item? =
        part.item?.toList ++ parts.filterMap Segment.item? := by
      cases h : part.item? <;> simp [h]
    rw [hcons]
    by_cases hparts : parts = []
    · simp [hparts, written, part.items_text]
    · rw [written_cons part hparts, items_append_comma, ih, part.items_text]

theorem items_intercalate {names : List Text} (h : ∀ name ∈ names, IsItem name) :
    items ([comma].intercalate names) = names := by
  have hblank : Text.IsBlank [] := nofun
  have hparts := items_written (names.attach.map fun ⟨name, hname⟩ =>
    .item [] name [] hblank (h name hname) hblank)
  simpa [written, Function.comp_def, Segment.text, Segment.item?] using hparts

theorem exists_written_eq (s : Text) : ∃ parts : List Segment, parts ≠ [] ∧ written parts = s := by
  induction s using comma_induction with
  | plain s h =>
    obtain ⟨part, rfl⟩ := Segment.exists_text_eq h
    exact ⟨[part], by simp, by simp [written]⟩
  | divided a b ha hb =>
    obtain ⟨parts, hparts, rfl⟩ := ha
    obtain ⟨rest, hrest, rfl⟩ := hb
    exact ⟨parts ++ rest, by simp [hparts], written_append hparts hrest⟩

theorem exists_read_of_command {args : List Text} {r : Request} (h : command args = .run r) :
    ∃ a, Arguments.read args = .ok a ∧ r = request a := by
  unfold command at h
  split at h
  · cases h
  · cases hread : Arguments.read args with
    | error e =>
      rw [hread] at h
      cases e <;> cases h
    | ok a =>
      simp only [hread] at h
      -- Help is asked for, or shown for want of a source; otherwise there is a run.
      split at h
      · cases h
      · split at h
        · cases h
        · exact ⟨a, rfl, (Command.run.inj h).symm⟩

end CommandLine

theorem Request.lookup_resolver {read : Text → Except FileError Text} {r : Request}
    {tables : List Settings} (h : Settings.loadAll read r.configs = .ok tables) (key : Text) :
    (r.session tables).resolver.lookup key =
      r.configs.findSome? (Settings.fileLookup read key) := by
  rw [← Settings.lookup_of_loadAll h, Session.resolver, session, List.map_map]
  rfl

open CommandLine

/-- A list of files is read part by part. A comma divides it, an item is neither empty nor has a
comma in it or white space at its ends, and there are no items exactly if the list is commas and
white space. Items with commas between them are read back in order, also among white space and parts
without an item, and every text is written so. The files that the command line names come in this
order, and the first of them that binds a key decides the value. -/
theorem lists_name_files_in_order :
    (∀ a b : Text, items (a ++ comma :: b) = items a ++ items b) ∧
    (∀ s : Text, ∀ name ∈ items s, IsItem name) ∧
    (∀ s : Text, items s = [] ↔ ∀ g ∈ s.glyphs, g = .char ',' ∨ g.isBlank = true) ∧
    (∀ parts : List Segment, items (written parts) = parts.filterMap Segment.item?) ∧
    (∀ names : List Text, (∀ name ∈ names, IsItem name) →
      items ([comma].intercalate names) = names) ∧
    (∀ s : Text, ∃ parts : List Segment, written parts = s) ∧
    ∀ (args : List Text) (r : Request), command args = .run r →
      ∃ a, Arguments.read args = .ok a ∧ ∀ parts : List Segment, a.config.getD [] = written parts →
        r.configs = parts.filterMap Segment.item? ∧
        ∀ (t : FileTree) (tables : List Settings), Settings.loadAll t.read r.configs = .ok tables →
          ∀ key, (r.session tables).resolver.lookup key =
            (parts.filterMap Segment.item?).findSome? (Settings.fileLookup t.read key) := by
  refine ⟨items_append_comma, fun s => isItem_of_mem_items, fun s => items_eq_nil_iff,
    items_written, fun names => items_intercalate, fun s => ?_, fun args r h => ?_⟩
  · obtain ⟨parts, -, hparts⟩ := exists_written_eq s
    exact ⟨parts, hparts⟩
  · obtain ⟨a, ha, rfl⟩ := exists_read_of_command h
    refine ⟨a, ha, fun parts hparts => ?_⟩
    have hconfigs : (request a).configs = parts.filterMap Segment.item? := by
      rw [← items_written, ← hparts]
      rfl
    refine ⟨hconfigs, fun t tables htables key => ?_⟩
    rw [Request.lookup_resolver htables, hconfigs]

/-- The second item begins with a stray byte, right behind a white-space character. -/
theorem lists_name_files_in_order_stray :
    let first : Text := "a.ini"
    let second : Text := 0xA0 :: Text.utf8 "b c.ini"
    let list : Text := "\ta.ini , \u3000,\u2003" ++ second ++ ","
    let t := (FileTree.empty.putFile first "x = 1\n").putFile second "x = 2\ny = 3\n"
    let r : Request := { source := "p.asm", configs := [first, second] }
    command ["-c", list, "p.asm"] = .run r ∧ items list = [first, second] ∧ IsItem second ∧
      ∃ tables, Settings.loadAll t.read r.configs = .ok tables ∧
        (r.session tables).resolver.lookup "$conf.x" = some (Text.utf8 "1") ∧
        (r.session tables).resolver.lookup "$conf.y" = some (Text.utf8 "3") := by
  intro first second list t r
  let parts : List Segment :=
    [.item "\t" first " " (by decide) (by decide) (by decide), .blank " \u3000" (by decide),
      .item "\u2003" second [] (by decide) (by decide) (by decide), .blank [] (by decide)]
  obtain ⟨-, hitem, -, hwritten, -, -, horder⟩ := lists_name_files_in_order
  have hlist : list = written parts := by decide
  have hitems : items list = [first, second] := by
    rw [hlist, hwritten]
    rfl
  have hargs : command ["-c", list, "p.asm"] = .run r ∧
      Arguments.read ["-c", list, "p.asm"] = .ok { config := list, source := "p.asm" } := by
    decide +kernel
  have hfiles : (Settings.loadAll t.read r.configs).isOk = true ∧
      r.configs.findSome? (Settings.fileLookup t.read "$conf.x") = some (Text.utf8 "1") ∧
      r.configs.findSome? (Settings.fileLookup t.read "$conf.y") = some (Text.utf8 "3") := by
    decide +kernel
  obtain ⟨a, ha, hnamed⟩ := horder _ r hargs.1
  obtain rfl := Except.ok.inj (ha.symm.trans hargs.2)
  obtain ⟨-, hlookup⟩ := hnamed parts hlist
  refine ⟨hargs.1, hitems, hitem list second (by simp [hitems]), ?_⟩
  cases htables : Settings.loadAll t.read r.configs with
  | error e =>
    rw [htables] at hfiles
    cases hfiles.1
  | ok tables =>
    exact ⟨tables, rfl, (hlookup t tables htables _).trans hfiles.2.1,
      (hlookup t tables htables _).trans hfiles.2.2⟩

end B100
