import B100.Proofs.Text.Trimming

/-! # Fields

The fields of a text are the words that white space divides it into. Every text is written with
white space and words in one way, and its fields are those words.
-/

namespace B100

namespace Glyph

/-- The maximal runs of glyphs that are not blank. -/
def runs (gs : List Glyph) : List (List Glyph) := (gs.splitOnP isBlank).filter (!·.isEmpty)

theorem runs_append_cons {g : Glyph} (hg : g.isBlank = true) (gs hs : List Glyph) :
    runs (gs ++ g :: hs) = runs gs ++ runs hs := by
  rw [runs, List.splitOnP_append_cons gs hs hg, List.filter_append]
  rfl

theorem runs_cons {g : Glyph} (hg : g.isBlank = true) (gs : List Glyph) :
    runs (g :: gs) = runs gs :=
  runs_append_cons hg [] gs

theorem runs_append_of_blank {lead : List Glyph} (h : ∀ g ∈ lead, g.isBlank = true)
    (gs : List Glyph) : runs (lead ++ gs) = runs gs := by
  induction lead with
  | nil => rfl
  | cons g lead ih =>
    rw [List.cons_append, runs_cons (h g List.mem_cons_self)]
    exact ih fun g hg => h g (List.mem_cons_of_mem _ hg)

theorem runs_of_unbroken {run : List Glyph} (h : ∀ g ∈ run, g.isBlank = false) (hne : run ≠ []) :
    runs run = [run] := by
  rw [runs, List.splitOnP_eq_singleton h]
  simp [hne]

theorem runs_append_of_unbroken {run rest : List Glyph} (h : ∀ g ∈ run, g.isBlank = false)
    (hne : run ≠ []) (hrest : ∀ g ∈ rest.head?, g.isBlank = true) :
    runs (run ++ rest) = run :: runs rest := by
  cases rest with
  | nil =>
    rw [List.append_nil, runs_of_unbroken h hne]
    rfl
  | cons g rest =>
    have hg := hrest g rfl
    rw [runs_append_cons hg, runs_of_unbroken h hne, runs_cons hg]
    rfl

theorem exists_run (gs : List Glyph) : (∀ g ∈ gs, g.isBlank = true) ∨
    ∃ lead run rest, gs = lead ++ (run ++ rest) ∧ (∀ g ∈ lead, g.isBlank = true) ∧ run ≠ [] ∧
      (∀ g ∈ run, g.isBlank = false) ∧ ∀ g ∈ rest.head?, g.isBlank = true := by
  cases hdrop : gs.dropWhile isBlank with
  | nil => exact .inl (List.dropWhile_eq_nil_iff.mp hdrop)
  | cons g tail =>
    have hg : g.isBlank = false := by
      have hhead := List.head?_dropWhile_not isBlank gs
      simpa [hdrop] using hhead
    refine .inr ⟨gs.takeWhile isBlank, (g :: tail).takeWhile (!·.isBlank),
      (g :: tail).dropWhile (!·.isBlank), ?_, ?_, ?_, ?_, ?_⟩
    · rw [List.takeWhile_append_dropWhile, ← hdrop, List.takeWhile_append_dropWhile]
    · exact fun g hg => List.mem_takeWhile_imp hg
    · simp [hg]
    · exact fun g hg => by simpa using List.mem_takeWhile_imp hg
    · intro h hh
      have hhead := List.head?_dropWhile_not (!·.isBlank) (g :: tail)
      rw [Option.mem_def.mp hh] at hhead
      simpa using hhead

theorem exists_cons_eq (b : UInt8) (gs : List Glyph) : ∃ g k, cons b gs = g :: gs.drop k := by
  unfold cons
  split
  · exact ⟨_, _, rfl⟩
  · exact ⟨_, 0, rfl⟩

end Glyph

namespace Text

/-- The last glyphs of a text are read back from their own bytes. -/
theorem glyphs_ofGlyphs_of_suffix {s : Text} {gs : List Glyph} (h : gs <:+ s.glyphs) :
    glyphs (ofGlyphs gs) = gs := by
  induction s with
  | nil => rw [List.suffix_nil.mp h, ofGlyphs_nil, glyphs_nil]
  | cons b s ih =>
    obtain ⟨g, k, hcons⟩ := Glyph.exists_cons_eq b (glyphs s)
    rw [glyphs_cons, hcons, List.suffix_cons_iff] at h
    rcases h with rfl | h
    · rw [← hcons, ← glyphs_cons, ofGlyphs_glyphs]
    · exact ih (h.trans (List.drop_suffix k _))

theorem head?_ne_stray {gs : List Glyph} (h : ∀ g ∈ gs.head?, g.isBlank = true) (b : UInt8) :
    gs.head? ≠ some (.stray b) := by
  intro hb
  cases h _ hb

/-- The text is these words, with white space between and around them. -/
inductive Spaced : Text → List Text → Prop
  | blank {s : Text} (h : s.IsBlank) : Spaced s []
  | word {lead word rest : Text} {words : List Text} (hlead : lead.IsBlank) (hne : word ≠ [])
    (hword : word.Unbroken) (hrest : ∀ g ∈ rest.glyphs.head?, g.isBlank = true)
    (h : Spaced rest words) : Spaced (lead ++ (word ++ rest)) (word :: words)

theorem fields_eq (s : Text) : s.fields = (Glyph.runs s.glyphs).map ofGlyphs := rfl

theorem Spaced.fields_eq {s : Text} {words : List Text} (h : Spaced s words) :
    s.fields = words := by
  induction h with
  | @blank s h =>
    have hruns := Glyph.runs_append_of_blank h []
    rw [List.append_nil] at hruns
    rw [Text.fields_eq, hruns]
    rfl
  | @word lead word rest words hlead hne hword hrest _ ih =>
    rw [Text.fields_eq, hlead.glyphs_append, Text.glyphs_append (head?_ne_stray hrest),
      Glyph.runs_append_of_blank hlead,
      Glyph.runs_append_of_unbroken hword (glyphs_ne_nil hne) hrest, List.map_cons, ofGlyphs_glyphs,
      ← Text.fields_eq, ih]

theorem exists_word (s : Text) : s.IsBlank ∨ ∃ lead word rest : Text,
    s = lead ++ (word ++ rest) ∧ lead.IsBlank ∧ word ≠ [] ∧ word.Unbroken ∧
      ∀ g ∈ rest.glyphs.head?, g.isBlank = true := by
  rcases Glyph.exists_run s.glyphs with hblank | ⟨lead, run, rest, hgs, hlead, hne, hrun, hrest⟩
  · exact .inl hblank
  · have hback : glyphs (ofGlyphs rest) = rest :=
      glyphs_ofGlyphs_of_suffix ⟨lead ++ run, by rw [hgs, List.append_assoc]⟩
    have hword : glyphs (ofGlyphs run) = run := by
      have hboth : glyphs (ofGlyphs (run ++ rest)) = run ++ rest :=
        glyphs_ofGlyphs_of_suffix ⟨lead, hgs.symm⟩
      rw [ofGlyphs_append, glyphs_append (by rw [hback]; exact head?_ne_stray hrest),
        hback] at hboth
      exact List.append_cancel_right hboth
    refine .inr ⟨ofGlyphs lead, ofGlyphs run, ofGlyphs rest, ?_, isBlank_ofGlyphs hlead, ?_, ?_, ?_⟩
    · rw [← ofGlyphs_append, ← ofGlyphs_append, ← hgs, ofGlyphs_glyphs]
    · intro hnil
      rw [hnil] at hword
      exact hne hword.symm
    · rwa [Unbroken, hword]
    · rwa [hback]

theorem exists_spaced (s : Text) : ∃ words, Spaced s words := by
  induction hn : s.length using Nat.strongRecOn generalizing s with
  | ind n ih =>
    rcases s.exists_word with hblank | ⟨lead, word, rest, rfl, hlead, hne, hword, hrest⟩
    · exact ⟨[], .blank hblank⟩
    · have hpos := List.length_pos_iff.mpr hne
      have hlt : rest.length < n := by
        simp only [List.length_append] at hn
        omega
      obtain ⟨words, hwords⟩ := ih rest.length hlt rest rfl
      exact ⟨word :: words, .word hlead hne hword hrest hwords⟩

theorem fields_eq_iff {s : Text} {words : List Text} : s.fields = words ↔ Spaced s words := by
  constructor
  · rintro rfl
    obtain ⟨words, h⟩ := s.exists_spaced
    rwa [h.fields_eq]
  · exact Spaced.fields_eq

end Text

end B100
