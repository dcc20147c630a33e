import B100.Proofs.Text.Glyphs
import Mathlib.Data.List.DropRight
import Mathlib.Data.List.Flatten

/-! # Trimming

Trimming looks at whole characters, so the white space that is put around a text never fuses with
stray bytes in it, and taking it off again leaves the text as it was.
-/

namespace B100

/-- The numbers of the white-space characters. -/
def blankNumbers : List Nat :=
  [0x09, 0x0A, 0x0B, 0x0C, 0x0D, 0x20, 0x85, 0xA0, 0x1680, 0x2000, 0x2001, 0x2002, 0x2003, 0x2004,
    0x2005, 0x2006, 0x2007, 0x2008, 0x2009, 0x200A, 0x2028, 0x2029, 0x202F, 0x205F, 0x3000]

/-- A property of the white-space characters is checked by going through them. -/
theorem forall_blank {P : Char → Prop} (h : ∀ n ∈ blankNumbers, P (Char.ofNat n)) {c : Char}
    (hc : isBlankChar c = true) : P c := by
  have hmem : c.toNat ∈ blankNumbers := by
    simp only [isBlankChar, Bool.or_eq_true, Bool.and_eq_true, decide_eq_true_eq, beq_iff_eq] at hc
    simp only [blankNumbers, List.mem_cons, List.not_mem_nil, or_false]
    omega
  rw [← Char.ofNat_toNat c]
  exact h _ hmem

namespace Text

def IsBlank (s : Text) : Prop := ∀ g ∈ s.glyphs, g.isBlank = true

instance (s : Text) : Decidable s.IsBlank := inferInstanceAs (Decidable (∀ _ ∈ _, _))

def Unbroken (s : Text) : Prop := ∀ g ∈ s.glyphs, g.isBlank = false

instance (s : Text) : Decidable s.Unbroken := inferInstanceAs (Decidable (∀ _ ∈ _, _))

def trimRight (s : Text) : Text := ofGlyphs (s.glyphs.rdropWhile Glyph.isBlank)

variable {s t lead trail : Text}

theorem ofByte_mem_glyphs_iff {b : UInt8} (hb : b < 0x80) : Glyph.ofByte b ∈ s.glyphs ↔ b ∈ s := by
  constructor
  · intro h
    have hmem : b ∈ ofGlyphs s.glyphs :=
      List.mem_flatMap.mpr ⟨_, h, by rw [Glyph.bytes_ofByte hb]; exact List.mem_singleton_self b⟩
    rwa [ofGlyphs_glyphs] at hmem
  · intro h
    obtain ⟨t, u, rfl⟩ := List.append_of_mem h
    rw [glyphs_append_ascii hb]
    simp

theorem trim_eq (s : Text) :
    s.trim = ofGlyphs ((s.glyphs.dropWhile Glyph.isBlank).rdropWhile Glyph.isBlank) := rfl

theorem glyphs_ne_nil (h : s ≠ []) : s.glyphs ≠ [] := by
  intro hg
  rw [← ofGlyphs_glyphs s, hg] at h
  exact h rfl

theorem exists_char_of_isBlank {g : Glyph} (h : g.isBlank = true) : ∃ c, g = .char c := by
  cases g with
  | char c => exact ⟨c, rfl⟩
  | stray b => cases h

theorem isBlank_ofGlyphs {gs : List Glyph} (h : ∀ g ∈ gs, g.isBlank = true) :
    IsBlank (ofGlyphs gs) := by
  intro g hg
  rw [glyphs_ofGlyphs fun g hg => exists_char_of_isBlank (h g hg)] at hg
  exact h g hg

theorem IsBlank.glyphs_append (h : lead.IsBlank) (s : Text) :
    glyphs (lead ++ s) = glyphs lead ++ glyphs s := by
  have hc := glyphs_ofGlyphs_append (fun g hg => exists_char_of_isBlank (h g hg)) s
  rwa [ofGlyphs_glyphs] at hc

theorem IsBlank.append_glyphs (h : trail.IsBlank) (s : Text) :
    glyphs (s ++ trail) = glyphs s ++ glyphs trail := by
  apply Text.glyphs_append
  intro b hb
  cases h _ (List.mem_of_head? hb)

theorem IsBlank.trim_append (h : lead.IsBlank) (s : Text) : (lead ++ s).trim = s.trim := by
  rw [trim_eq, h.glyphs_append, List.dropWhile_append_of_pos h, trim_eq]

theorem rdropWhile_append_of_pos {α : Type} {p : α → Bool} {l r : List α} (h : ∀ a ∈ r, p a) :
    (l ++ r).rdropWhile p = l.rdropWhile p := by
  rw [List.rdropWhile, List.reverse_append, List.dropWhile_append_of_pos (by simpa using h)]
  rfl

theorem IsBlank.append_trim (h : trail.IsBlank) (s : Text) : (s ++ trail).trim = s.trim := by
  rw [trim_eq, h.append_glyphs, List.dropWhile_append, trim_eq]
  split
  · next hs =>
    have hs : (glyphs s).dropWhile Glyph.isBlank = [] := by simpa using hs
    rw [hs, List.dropWhile_eq_nil_iff.mpr h]
  · rw [rdropWhile_append_of_pos h]

theorem trim_surround (hl : lead.IsBlank) (ht : trail.IsBlank) (s : Text) :
    (lead ++ s ++ trail).trim = s.trim := by
  rw [ht.append_trim, hl.trim_append]

theorem isBlank_of_isSpaceOrTab (h : ∀ b ∈ s, isSpaceOrTab b = true) : s.IsBlank := by
  have hb : ∀ b ∈ s, b < 0x80 ∧ (Glyph.ofByte b).isBlank = true := by
    intro b hb
    have hst := h b hb
    simp only [isSpaceOrTab, Bool.or_eq_true, beq_iff_eq] at hst
    rcases hst with rfl | rfl <;> decide
  intro g hg
  rw [glyphs_of_ascii fun b hm => (hb b hm).1] at hg
  obtain ⟨b, hm, rfl⟩ := List.mem_map.mp hg
  exact (hb b hm).2

theorem trim_dropWhile_isSpaceOrTab (s : Text) :
    trim (s.dropWhile isSpaceOrTab) = s.trim := by
  have hblank : IsBlank (s.takeWhile isSpaceOrTab) :=
    isBlank_of_isSpaceOrTab fun b hb => List.mem_takeWhile_imp hb
  rw [← hblank.trim_append, List.takeWhile_append_dropWhile]

/-- Every glyph has bytes, so a text that has lost a glyph is shorter. -/
theorem eq_of_sublist_of_length_le {gs hs : List Glyph} (h : gs.Sublist hs)
    (hlen : (ofGlyphs hs).length ≤ (ofGlyphs gs).length) : gs = hs := by
  induction h with
  | slnil => rfl
  | @cons gs hs g h ih =>
    have hle : (ofGlyphs gs).length ≤ (ofGlyphs hs).length := (h.flatMap _).length_le
    have hpos : 0 < g.bytes.length := by
      cases g with
      | char c => exact String.length_utf8EncodeChar c ▸ c.utf8Size_pos
      | stray b => exact Nat.one_pos
    rw [ofGlyphs_cons, List.length_append] at hlen
    omega
  | cons_cons g h ih => rw [ih (by simpa using hlen)]

theorem trim_eq_self_iff :
    s.trim = s ↔ (∀ g ∈ s.glyphs.head?, g.isBlank = false) ∧
      ∀ g ∈ s.glyphs.getLast?, g.isBlank = false := by
  have hdrop : s.glyphs.dropWhile Glyph.isBlank = s.glyphs ↔
      ∀ g ∈ s.glyphs.head?, g.isBlank = false := by
    cases s.glyphs <;> simp [List.dropWhile_eq_self_iff]
  have hrdrop : s.glyphs.rdropWhile Glyph.isBlank = s.glyphs ↔
      ∀ g ∈ s.glyphs.getLast?, g.isBlank = false := by
    rw [List.rdropWhile_eq_self_iff]
    cases hg : s.glyphs <;> simp [List.getLast?_eq_some_getLast]
  rw [← hdrop, ← hrdrop]
  constructor
  · intro h
    have hback := List.dropWhile_suffix Glyph.isBlank (l := s.glyphs)
    have hfront := List.rdropWhile_prefix Glyph.isBlank (s.glyphs.dropWhile Glyph.isBlank)
    have he := eq_of_sublist_of_length_le (hfront.sublist.trans hback.sublist) (by
      rw [← trim_eq, h, ofGlyphs_glyphs])
    have hd := hback.eq_of_length_le
      ((congrArg List.length he).symm.le.trans hfront.length_le)
    rw [hd] at he
    exact ⟨hd, he⟩
  · rintro ⟨hd, hr⟩
    rw [trim_eq, hd, hr, ofGlyphs_glyphs]

theorem trim_eq_self_iff_not_blank :
    s.trim = s ↔ ∀ c, isBlankChar c = true →
      ¬ String.utf8EncodeChar c <+: s ∧ ¬ String.utf8EncodeChar c <:+ s := by
  rw [trim_eq_self_iff]
  constructor
  · rintro ⟨hfirst, hlast⟩ c hc
    constructor
    · intro h
      cases (hfirst _ (head?_glyphs_eq_char_iff.mpr h)).symm.trans hc
    · intro h
      cases (hlast _ (getLast?_glyphs_eq_char_iff.mpr h)).symm.trans hc
  · intro h
    refine ⟨fun g hg => ?_, fun g hg => ?_⟩ <;> rw [← Bool.not_eq_true] <;> intro hblank
    · obtain ⟨c, rfl⟩ := exists_char_of_isBlank hblank
      exact (h c hblank).1 (head?_glyphs_eq_char_iff.mp hg)
    · obtain ⟨c, rfl⟩ := exists_char_of_isBlank hblank
      exact (h c hblank).2 (getLast?_glyphs_eq_char_iff.mp hg)

structure IsGap (run : Text) : Prop where
  nonempty : run ≠ []
  blank : ∀ b ∈ run, isSpaceOrTab b = true

theorem IsGap.isBlank {run : Text} (h : run.IsGap) : run.IsBlank := isBlank_of_isSpaceOrTab h.blank

theorem IsGap.glyphs {run : Text} (h : run.IsGap) (s t : Text) :
    Text.glyphs (s ++ run ++ t) = s.glyphs ++ run.glyphs ++ t.glyphs := by
  have ht := h.isBlank.glyphs_append t
  rw [List.append_assoc, Text.glyphs_append, ht, List.append_assoc]
  intro b hb
  obtain ⟨g, gs, hg⟩ := List.exists_cons_of_ne_nil (glyphs_ne_nil h.nonempty)
  have hblank := h.isBlank g (hg ▸ List.mem_cons_self)
  rw [ht, hg, List.cons_append, List.head?_cons] at hb
  rw [Option.some.inj hb] at hblank
  cases hblank

/-- Whether a text with a gap in it is trimmed shows on either side of the gap. -/
theorem IsGap.trim_eq_self_iff {run : Text} (h : run.IsGap) :
    (s ++ run ++ t).trim = s ++ run ++ t ↔
      (∃ g gs, s.glyphs = g :: gs ∧ g.isBlank = false) ∧
        ∃ gs g, t.glyphs = gs ++ [g] ∧ g.isBlank = false := by
  have hne := glyphs_ne_nil h.nonempty
  rw [Text.trim_eq_self_iff, h.glyphs]
  apply and_congr
  · cases s.glyphs with
    | nil =>
      have hfirst := h.isBlank _ (List.head_mem hne)
      simp [List.head?_append, List.head?_eq_some_head hne, hfirst]
    | cons g gs => simp
  · rcases List.eq_nil_or_concat t.glyphs with ht | ⟨gs, g, ht⟩
    · have hlast := h.isBlank _ (List.getLast_mem hne)
      simp [ht, List.getLast?_append, List.getLast?_eq_some_getLast hne, hlast]
    · simp [ht]

theorem Visible.unbroken (h : s.Visible) : s.Unbroken := by
  intro g hg
  rw [glyphs_of_ascii h.ascii] at hg
  obtain ⟨b, hb, rfl⟩ := List.mem_map.mp hg
  exact Glyph.isBlank_ofByte (h.visible b hb)

theorem Unbroken.trim_eq_self (h : s.Unbroken) : s.trim = s :=
  trim_eq_self_iff.mpr ⟨fun g hg => h g (List.mem_of_head? hg),
    fun g hg => h g (List.mem_of_getLast? hg)⟩

theorem Visible.trim_append (hs : s.Visible) (ht : t ≠ [])
    (hlast : ∀ g ∈ t.glyphs.getLast?, g.isBlank = false) : (s ++ t).trim = s ++ t := by
  have hsne := glyphs_ne_nil hs.nonempty
  rw [trim_eq_self_iff, glyphs_ascii_append hs.ascii,
    List.getLast?_append_of_ne_nil _ (glyphs_ne_nil ht), List.head?_append_of_ne_nil _ hsne]
  exact ⟨fun g hg => hs.unbroken g (List.mem_of_head? hg), hlast⟩

theorem dropWhile_append_cons_of_neg {α : Type} {p : α → Bool} {a : α} (ha : p a = false)
    (l r : List α) : (l ++ a :: r).dropWhile p = l.dropWhile p ++ a :: r := by
  rw [List.dropWhile_append]
  split
  · next h => simp [ha, List.isEmpty_iff.mp h]
  · rfl

theorem trim_append_cons {b : UInt8} (hb : 0x20 < b ∧ b < 0x7F) (s t : Text) :
    (s ++ b :: t).trim = s.trimLeft ++ b :: t.trimRight := by
  have hascii : b < 0x80 := UInt8.lt_trans hb.2 (by decide)
  have hblank := Glyph.isBlank_ofByte hb
  have hr : ∀ l r : List Glyph, (l ++ Glyph.ofByte b :: r).rdropWhile Glyph.isBlank =
      l ++ Glyph.ofByte b :: r.rdropWhile Glyph.isBlank := by
    intro l r
    simp [List.rdropWhile, dropWhile_append_cons_of_neg hblank]
  rw [trim_eq, glyphs_append_ascii hascii, dropWhile_append_cons_of_neg hblank, hr,
    ofGlyphs_append, ofGlyphs_cons, Glyph.bytes_ofByte hascii]
  rfl

theorem IsBlank.trimLeft_append (h : lead.IsBlank) (s : Text) :
    (lead ++ s).trimLeft = s.trimLeft := by
  rw [trimLeft, h.glyphs_append, List.dropWhile_append_of_pos h, trimLeft]

theorem IsBlank.trimLeft_eq_nil (h : s.IsBlank) : s.trimLeft = [] := by
  rw [trimLeft, List.dropWhile_eq_nil_iff.mpr h]
  rfl

theorem trimLeft_cons {b : UInt8} (hb : 0x20 < b ∧ b < 0x7F) (s : Text) :
    trimLeft (b :: s) = b :: s := by
  have hg : glyphs (b :: s) = Glyph.ofByte b :: glyphs s :=
    Glyph.cons_of_ascii (UInt8.lt_trans hb.2 (by decide)) _
  rw [trimLeft, hg, List.dropWhile_cons_of_neg (by simp [Glyph.isBlank_ofByte hb]), ← hg,
    ofGlyphs_glyphs]

theorem IsBlank.notMem (h : s.IsBlank) {b : UInt8} (hb : 0x20 < b ∧ b < 0x7F) : b ∉ s := by
  intro hs
  have hblank := h _ ((ofByte_mem_glyphs_iff (UInt8.lt_trans hb.2 (by decide))).mpr hs)
  rw [Glyph.isBlank_ofByte hb] at hblank
  cases hblank

theorem IsBlank.head_lt (h : s.IsBlank) : ∀ b ∈ s.head?, b < 0xEF := by
  cases hg : s.glyphs with
  | nil =>
    rw [← ofGlyphs_glyphs s, hg]
    nofun
  | cons g gs =>
    have hblank := h g (hg ▸ List.mem_cons_self)
    obtain ⟨c, rfl⟩ := exists_char_of_isBlank hblank
    obtain ⟨b, t, hc, -⟩ := exists_utf8EncodeChar_eq_cons c
    have hlt : ∀ b ∈ (String.utf8EncodeChar c).head?, b < 0xEF :=
      forall_blank (P := fun c => ∀ b ∈ (String.utf8EncodeChar c).head?, b < 0xEF)
        (by decide +kernel) hblank
    have hbytes : (Glyph.char c).bytes = b :: t := hc
    rw [hc] at hlt
    rw [← ofGlyphs_glyphs s, hg, ofGlyphs_cons, hbytes]
    exact hlt

theorem exists_isBlank_append_trimLeft (s : Text) : ∃ lead : Text, lead.IsBlank ∧
    lead ++ s.trimLeft = s := by
  refine ⟨ofGlyphs (s.glyphs.takeWhile Glyph.isBlank),
    isBlank_ofGlyphs fun _ hg => List.mem_takeWhile_imp hg, ?_⟩
  rw [trimLeft, ← ofGlyphs_append, List.takeWhile_append_dropWhile, ofGlyphs_glyphs]

theorem trim_trimLeft (s : Text) : s.trimLeft.trim = s.trim := by
  obtain ⟨lead, hlead, hs⟩ := exists_isBlank_append_trimLeft s
  rw [← hlead.trim_append, hs]

theorem exists_trimRight_append_isBlank (s : Text) : ∃ trail : Text, trail.IsBlank ∧
    s.trimRight ++ trail = s := by
  refine ⟨ofGlyphs (s.glyphs.rtakeWhile Glyph.isBlank),
    isBlank_ofGlyphs fun _ hg => List.mem_rtakeWhile_imp hg, ?_⟩
  rw [trimRight, ← ofGlyphs_append, List.rdropWhile_append_rtakeWhile, ofGlyphs_glyphs]

theorem trim_trimRight (s : Text) : s.trimRight.trim = s.trim := by
  obtain ⟨trail, htrail, hs⟩ := exists_trimRight_append_isBlank s
  rw [← htrail.append_trim, hs]

theorem Unbroken.any_isSpaceOrTab (h : s.Unbroken) : s.any isSpaceOrTab = false := by
  rw [List.any_eq_false]
  intro b hb hst
  have hblank : b < 0x80 ∧ (Glyph.ofByte b).isBlank = true := by
    simp only [isSpaceOrTab, Bool.or_eq_true, beq_iff_eq] at hst
    rcases hst with rfl | rfl <;> decide
  cases (h _ ((ofByte_mem_glyphs_iff hblank.1).mpr hb)).symm.trans hblank.2

theorem Unbroken.dropWhile_isSpaceOrTab (h : s.Unbroken) : s.dropWhile isSpaceOrTab = s := by
  rw [List.dropWhile_eq_self_iff]
  intro hlen
  exact List.any_eq_false.mp h.any_isSpaceOrTab _ (List.getElem_mem hlen)

theorem Unbroken.fields_append_space (hs : s.Unbroken) (hsne : s ≠ []) (ht : t.Unbroken)
    (htne : t ≠ []) : fields (s ++ ' '.toUInt8 :: t) = [s, t] := by
  rw [fields, glyphs_append_ascii (by decide),
    List.splitOnP_append_cons_of_forall_mem hs _ (by decide), List.splitOnP_eq_singleton ht]
  simp [glyphs_ne_nil hsne, glyphs_ne_nil htne]

def leading (s : Text) : Text := ofGlyphs (s.glyphs.takeWhile Glyph.isBlank)

/-- The white space at the end, if there is anything before it. -/
def trailing (s : Text) : Text :=
  ofGlyphs ((s.glyphs.dropWhile Glyph.isBlank).rtakeWhile Glyph.isBlank)

def within (f : Text → Text) (s : Text) : Text := s.leading ++ f s.trim ++ s.trailing

theorem isBlank_leading (s : Text) : s.leading.IsBlank :=
  isBlank_ofGlyphs fun _ hg => List.mem_takeWhile_imp hg

theorem isBlank_trailing (s : Text) : s.trailing.IsBlank :=
  isBlank_ofGlyphs fun _ hg => List.mem_rtakeWhile_imp hg

theorem leading_append_trim_append_trailing (s : Text) : s.leading ++ s.trim ++ s.trailing = s := by
  rw [leading, trim_eq, trailing, ← ofGlyphs_append, ← ofGlyphs_append, List.append_assoc,
    List.rdropWhile_append_rtakeWhile, List.takeWhile_append_dropWhile, ofGlyphs_glyphs]

theorem trim_eq_nil_iff : s.trim = [] ↔ s.IsBlank := by
  constructor
  · intro h
    have hs := leading_append_trim_append_trailing s
    rw [h, List.append_nil] at hs
    rw [← hs, IsBlank, s.isBlank_leading.glyphs_append]
    exact List.forall_mem_append.mpr ⟨s.isBlank_leading, s.isBlank_trailing⟩
  · intro h
    have htrim := h.trim_append []
    rwa [List.append_nil] at htrim

variable {f : Text → Text}

theorem trim_within (f : Text → Text) (s : Text) : (s.within f).trim = (f s.trim).trim :=
  trim_surround s.isBlank_leading s.isBlank_trailing _

theorem within_eq_self (h : f s.trim = s.trim) : s.within f = s := by
  rw [within, h, leading_append_trim_append_trailing]

@[simp] theorem trim_trim (s : Text) : s.trim.trim = s.trim := by
  have h := trim_within id s
  rw [within_eq_self rfl] at h
  exact h.symm

theorem notMem_trim {b : UInt8} (hs : b ∉ s) : b ∉ s.trim := by
  rw [← leading_append_trim_append_trailing s] at hs
  simp only [List.mem_append, not_or] at hs
  exact hs.1.2

theorem notMem_within {b : UInt8} (hs : b ∉ s) (hf : b ∉ f s.trim) : b ∉ s.within f := by
  rw [← leading_append_trim_append_trailing s] at hs
  simp only [within, List.mem_append, not_or] at hs ⊢
  exact ⟨⟨hs.1.1, hf⟩, hs.2⟩

theorem trailing_eq_nil {gs : List Glyph} {g : Glyph} (h : s.glyphs = gs ++ [g])
    (hg : g.isBlank = false) : s.trailing = [] := by
  rw [trailing, h, dropWhile_append_cons_of_neg hg, List.rtakeWhile_concat_neg _ _ _ (by simp [hg])]
  rfl

/-- A text still begins with no space or tab after a change between its white space, unless what is
put there does. -/
theorem dropWhile_isSpaceOrTab_within {b : UInt8} {t : Text}
    (hs : s.dropWhile isSpaceOrTab = s) (hf : f s.trim = b :: t) (hb : isSpaceOrTab b = false) :
    (s.within f).dropWhile isSpaceOrTab = s.within f := by
  rw [within, hf]
  cases hl : s.leading with
  | nil => exact List.dropWhile_cons_of_neg (by simp [hb])
  | cons c lead =>
    have hs' := leading_append_trim_append_trailing s
    rw [hl] at hs'
    rw [← hs'] at hs
    have hc : ¬ isSpaceOrTab c = true := List.dropWhile_eq_self_iff.mp hs (Nat.zero_lt_succ _)
    exact List.dropWhile_cons_of_neg hc

end Text

end B100
