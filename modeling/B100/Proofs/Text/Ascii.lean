import B100.Text.Blank
import B100.Text.LowerCase
import Mathlib.Data.List.TakeDrop
import Mathlib.Data.List.TakeWhile

/-! # Plain text

On ASCII a glyph is a byte. A text is clean if it is printable ASCII that neither begins nor ends
with a space, and trimming leaves it alone.
-/

namespace B100

/-- A property of all bytes is checked by going through them. -/
theorem forall_byte {P : UInt8 → Prop} (h : ∀ n < 256, P (UInt8.ofNat n)) (b : UInt8) : P b := by
  rw [← UInt8.ofNat_toNat (x := b)]
  exact h _ b.toNat_lt

theorem forall_ascii {P : UInt8 → Prop} (h : ∀ n < 128, P (UInt8.ofNat n)) {b : UInt8}
    (hb : b < 0x80) : P b := by
  rw [← UInt8.ofNat_toNat (x := b)]
  exact h _ hb

def Glyph.ofByte (b : UInt8) : Glyph := .char (Char.ofUInt8 b)

theorem Glyph.bytes_ofByte {b : UInt8} (hb : b < 0x80) : (ofByte b).bytes = [b] :=
  forall_ascii (P := fun b => (ofByte b).bytes = [b]) (by decide) hb

theorem Glyph.isBlank_ofByte {b : UInt8} (hb : 0x20 < b ∧ b < 0x7F) : (ofByte b).isBlank = false :=
  forall_ascii (P := fun b => 0x20 < b → (ofByte b).isBlank = false) (by decide)
    (UInt8.lt_trans hb.2 (by decide)) hb.1

theorem Glyph.cons_of_ascii {b : UInt8} (hb : b < 0x80) (gs : List Glyph) :
    cons b gs = ofByte b :: gs := by
  have hbytes : String.utf8EncodeChar (Char.ofUInt8 b) = [b] := bytes_ofByte hb
  have hsize : (Char.ofUInt8 b).utf8Size = 1 := by
    rw [← String.length_utf8EncodeChar, hbytes]
    rfl
  have hc : Text.char? (b :: strays (gs.take 3)) = some (Char.ofUInt8 b) := by
    rw [Text.char?_eq_some_iff, hbytes]
    exact ⟨_, rfl⟩
  simp [cons, hc, hsize, ofByte]

namespace Text

theorem glyphs_of_ascii {s : Text} (h : ∀ b ∈ s, b < 0x80) : glyphs s = s.map Glyph.ofByte := by
  induction s with
  | nil => rfl
  | cons b s ih =>
    rw [glyphs_cons, ih fun c hc => h c (List.mem_cons_of_mem b hc),
      Glyph.cons_of_ascii (h b List.mem_cons_self), List.map_cons]

theorem ofGlyphs_map_ofByte {s : Text} (h : ∀ b ∈ s, b < 0x80) :
    ofGlyphs (s.map Glyph.ofByte) = s := by
  rw [← glyphs_of_ascii h, ofGlyphs_glyphs]

/-- A word of visible ASCII characters. -/
structure Visible (s : Text) : Prop where
  nonempty : s ≠ []
  visible : ∀ b ∈ s, 0x20 < b ∧ b < 0x7F

/-- Printable ASCII without a space at either end. -/
structure Clean (s : Text) : Prop where
  printable : ∀ b ∈ s, 0x20 ≤ b ∧ b < 0x7F
  first : ∃ b, s.head? = some b ∧ 0x20 < b
  last : ∃ b, s.getLast? = some b ∧ 0x20 < b

instance (s : Text) : Decidable s.Visible :=
  decidable_of_iff (s ≠ [] ∧ s.all fun b => 0x20 < b && b < 0x7F)
    ⟨fun h => ⟨h.1, by simpa using h.2⟩, fun h => ⟨h.nonempty, by simpa using h.visible⟩⟩

variable {s t u : Text}

theorem Visible.ascii (h : s.Visible) : ∀ b ∈ s, b < 0x80 :=
  fun b hb => UInt8.lt_trans (h.visible b hb).2 (by decide)

theorem Visible.append (hs : s.Visible) (ht : t.Visible) : (s ++ t).Visible := by
  refine ⟨by simp [hs.nonempty], fun b hb => ?_⟩
  rcases List.mem_append.mp hb with hb | hb
  · exact hs.visible b hb
  · exact ht.visible b hb

theorem isSpaceOrTab_of_lt {b : UInt8} (h : 0x20 < b) : isSpaceOrTab b = false := by
  simp only [isSpaceOrTab, Bool.or_eq_false_iff, beq_eq_false_iff_ne]
  constructor <;> rintro rfl <;> exact absurd h (by decide)

theorem Visible.not_isSpaceOrTab (h : s.Visible) : ∀ b ∈ s, isSpaceOrTab b = false :=
  fun b hb => isSpaceOrTab_of_lt (h.visible b hb).1

theorem Visible.clean (h : s.Visible) : s.Clean where
  printable b hb := ⟨UInt8.le_of_lt (h.visible b hb).1, (h.visible b hb).2⟩
  first := ⟨_, List.head?_eq_some_head h.nonempty, (h.visible _ (List.head_mem h.nonempty)).1⟩
  last := ⟨_, List.getLast?_eq_some_getLast h.nonempty,
    (h.visible _ (List.getLast_mem h.nonempty)).1⟩

theorem Clean.append_space (hs : s.Clean) (ht : t.Clean) : (s ++ ' '.toUInt8 :: t).Clean where
  printable b hb := by
    rcases List.mem_append.mp hb with hb | hb
    · exact hs.printable b hb
    · rcases List.mem_cons.mp hb with rfl | hb
      · decide
      · exact ht.printable b hb
  first := by
    obtain ⟨b, hb, hlt⟩ := hs.first
    exact ⟨b, by simp [hb], hlt⟩
  last := by
    obtain ⟨b, hb, hlt⟩ := ht.last
    exact ⟨b, by simp [List.getLast?_cons, hb], hlt⟩

theorem Clean.ascii (h : s.Clean) : ∀ b ∈ s, b < 0x80 :=
  fun b hb => UInt8.lt_trans (h.printable b hb).2 (by decide)

theorem Clean.newline_notMem (h : s.Clean) : '\n'.toUInt8 ∉ s :=
  fun hn => absurd (h.printable _ hn).1 (by decide)

theorem Clean.dropWhile_isSpaceOrTab (h : s.Clean) : s.dropWhile isSpaceOrTab = s := by
  obtain ⟨b, hb, hlt⟩ := h.first
  obtain ⟨t, rfl⟩ := List.head?_eq_some_iff.mp hb
  exact List.dropWhile_cons_of_neg (by simp [isSpaceOrTab_of_lt hlt])

theorem Clean.length_pos (h : s.Clean) : 0 < s.length := by
  obtain ⟨b, hb, -⟩ := h.first
  obtain ⟨t, rfl⟩ := List.head?_eq_some_iff.mp hb
  exact Nat.zero_lt_succ _

theorem Clean.length_glyphs (h : s.Clean) : s.glyphs.length = s.length := by
  rw [glyphs_of_ascii h.ascii, List.length_map]

@[simp] theorem Clean.trim_eq_self (h : s.Clean) : s.trim = s := by
  obtain ⟨a, ha, hlt⟩ := h.first
  obtain ⟨z, hz, hlt'⟩ := h.last
  obtain ⟨t, rfl⟩ := List.head?_eq_some_iff.mp ha
  obtain ⟨u, hu⟩ := List.getLast?_eq_some_iff.mp hz
  have hblank : ∀ b ∈ a :: t, 0x20 < b → ¬ (Glyph.ofByte b).isBlank = true := by
    intro b hb hlt
    rw [Glyph.isBlank_ofByte ⟨hlt, (h.printable b hb).2⟩]
    exact Bool.false_ne_true
  have hg := glyphs_of_ascii h.ascii
  rw [trim, hg, List.map_cons, List.dropWhile_cons_of_neg (hblank a List.mem_cons_self hlt),
    ← List.map_cons, hu, List.map_append, List.reverse_append]
  rw [List.map_singleton, List.reverse_singleton, List.singleton_append,
    List.dropWhile_cons_of_neg (hblank z (by simp [hu]) hlt'), List.reverse_cons,
    List.reverse_reverse, ← List.map_singleton, ← List.map_append, ← hu,
    ofGlyphs_map_ofByte h.ascii]

theorem cut_of_forall {p : UInt8 → Bool} (h : ∀ b ∈ s, p b = false) : s.cut p = (s, none) := by
  have hd : s.dropWhile (!p ·) = [] := by
    simpa [List.dropWhile_eq_nil_iff] using h
  have ht : s.takeWhile (!p ·) = s := by
    simpa [List.takeWhile_eq_self_iff] using h
  simp [cut, List.span_eq_takeWhile_dropWhile, hd, ht]

theorem cut_append_cons {p : UInt8 → Bool} (h : ∀ b ∈ s, p b = false) {b : UInt8} (hb : p b = true)
    (t : Text) : (s ++ b :: t).cut p = (s, some t) := by
  have hs : ∀ c ∈ s, (!p c) = true := by
    simpa using h
  simp [cut, List.span_eq_takeWhile_dropWhile, List.takeWhile_append_of_pos hs,
    List.dropWhile_append_of_pos hs, hb]

theorem cut_beq_of_notMem {c : UInt8} (h : c ∉ s) : s.cut (· == c) = (s, none) :=
  cut_of_forall fun b hb => by simpa using ne_of_mem_of_not_mem hb h

theorem cut_beq_append_cons {c : UInt8} (h : c ∉ s) (t : Text) :
    (s ++ c :: t).cut (· == c) = (s, some t) :=
  cut_append_cons (fun b hb => by simpa using ne_of_mem_of_not_mem hb h) (by simp) t

theorem forall_of_cut_eq_none {p : UInt8 → Bool} (h : s.cut p = (t, none)) :
    s = t ∧ ∀ b ∈ s, p b = false := by
  simp only [cut, List.span_eq_takeWhile_dropWhile] at h
  cases hd : s.dropWhile (!p ·) with
  | nil =>
    obtain rfl : s.takeWhile (!p ·) = t := by simpa [hd] using h
    rw [List.dropWhile_eq_nil_iff] at hd
    exact ⟨(List.takeWhile_eq_self_iff.mpr hd).symm, by simpa using hd⟩
  | cons b rest => simp [hd] at h

theorem exists_of_cut_eq_some {p : UInt8 → Bool} (h : s.cut p = (t, some u)) :
    ∃ b, s = t ++ b :: u ∧ p b = true ∧ ∀ c ∈ t, p c = false := by
  simp only [cut, List.span_eq_takeWhile_dropWhile] at h
  cases hd : s.dropWhile (!p ·) with
  | nil => simp [hd] at h
  | cons b rest =>
    obtain ⟨rfl, rfl⟩ : s.takeWhile (!p ·) = t ∧ rest = u := by simpa [hd] using h
    refine ⟨b, ?_, ?_, fun c hc => ?_⟩
    · rw [← hd, List.takeWhile_append_dropWhile]
    · have hb := List.head?_dropWhile_not (!p ·) s
      simpa [hd] using hb
    · simpa using List.mem_takeWhile_imp hc

theorem cutLast?_append_cons {p : UInt8 → Bool} {b : UInt8} (hb : p b = true)
    (ht : ∀ c ∈ t, p c = false) : (s ++ b :: t).cutLast? p = some (s, t) := by
  have hcut : cut (t.reverse ++ b :: s.reverse) p = (t.reverse, some s.reverse) :=
    cut_append_cons (by simpa using ht) hb _
  have hrev : (s ++ b :: t).reverse = t.reverse ++ b :: s.reverse := by simp
  rw [cutLast?, hrev, hcut]
  dsimp only
  rw [List.reverse_reverse, List.reverse_reverse]

theorem cutLast?_beq_append_cons {c : UInt8} (h : c ∉ t) :
    (s ++ c :: t).cutLast? (· == c) = some (s, t) :=
  cutLast?_append_cons (beq_self_eq_true c) fun b hb => by simpa using ne_of_mem_of_not_mem hb h

theorem cutLast?_beq_of_notMem {c : UInt8} (h : c ∉ s) : s.cutLast? (· == c) = none := by
  rw [cutLast?, cut_beq_of_notMem (by simpa using h)]

theorem notMem_or_exists_last (c : UInt8) (s : Text) : c ∉ s ∨ ∃ t u, s = t ++ c :: u ∧ c ∉ u := by
  induction s with
  | nil => exact .inl List.not_mem_nil
  | cons b s ih =>
    rcases ih with hs | ⟨t, u, rfl, hu⟩
    · by_cases hb : c = b
      · subst hb
        exact .inr ⟨[], s, rfl, hs⟩
      · exact .inl (List.not_mem_cons_of_ne_of_not_mem hb hs)
    · exact .inr ⟨b :: t, u, rfl, hu⟩

@[simp] theorem after?_append (s t : Text) : (s ++ t).after? s = some t := by
  simp [after?]

theorem after?_eq_some_iff {beginning rest : Text} :
    s.after? beginning = some rest ↔ s = beginning ++ rest := by
  constructor
  · intro h
    unfold after? at h
    split at h
    · next hp =>
      obtain ⟨t, rfl⟩ := List.isPrefixOf_iff_prefix.mp hp
      rw [List.drop_left] at h
      rw [Option.some.inj h]
    · cases h
  · rintro rfl
    exact after?_append beginning rest

theorem after?_eq_none {beginning : Text} {b : UInt8} (hb : b ∈ beginning) (hs : b ∉ s) :
    s.after? beginning = none := by
  rw [after?, if_neg]
  intro h
  exact hs ((List.isPrefixOf_iff_prefix.mp h).subset hb)

end Text

end B100
