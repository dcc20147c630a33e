import B100.Proofs.Text.Ascii
import B100.Tool.Request
import Mathlib.Data.List.Basic

/-! # The path of an image

An image goes into the directory of its source, under the stem of the source's name. The dots of a
path count only behind its last slash, so the directory stays as it is written.
-/

namespace B100

namespace Path

/-- A path taken apart: everything up to and including the last slash, and the name behind it. -/
structure Splits (path directory name : Text) : Prop where
  whole : path = directory ++ name
  closed : directory = [] ∨ directory.getLast? = some '/'.toUInt8
  plain : '/'.toUInt8 ∉ name

/-- A name up to its last dot, or all of it if it has none. -/
inductive IsStem : Text → Text → Prop
  | dotted {stem extension : Text} (h : '.'.toUInt8 ∉ extension) :
    IsStem (stem ++ '.'.toUInt8 :: extension) stem
  | undotted {name : Text} (h : '.'.toUInt8 ∉ name) : IsStem name name

variable {path path' directory directory' name name' s s' : Text}

theorem exists_splits (path : Text) : ∃ directory name, Splits path directory name := by
  rcases Text.notMem_or_exists_last '/'.toUInt8 path with h | ⟨front, name, rfl, h⟩
  · exact ⟨[], path, rfl, .inl rfl, h⟩
  · exact ⟨front ++ ['/'.toUInt8], name, by simp, .inr (by simp), h⟩

theorem eq_nil_of_closed {rest : Text}
    (h : directory ++ rest = [] ∨ (directory ++ rest).getLast? = some '/'.toUInt8)
    (hrest : '/'.toUInt8 ∉ rest) : rest = [] := by
  rcases h with h | h
  · exact (List.append_eq_nil_iff.mp h).2
  · by_contra hne
    rw [List.getLast?_append_of_ne_nil _ hne] at h
    exact hrest (List.mem_of_getLast? h)

theorem Splits.unique (h : Splits path directory name) (h' : Splits path directory' name') :
    directory = directory' ∧ name = name' := by
  obtain ⟨whole, closed, plain⟩ := h
  obtain ⟨whole', closed', plain'⟩ := h'
  rcases List.append_eq_append_iff.mp (whole.symm.trans whole') with
    ⟨rest, rfl, rfl⟩ | ⟨rest, rfl, rfl⟩
  · obtain rfl := eq_nil_of_closed closed' fun hr => plain (List.mem_append_left _ hr)
    simp
  · obtain rfl := eq_nil_of_closed closed fun hr => plain' (List.mem_append_left _ hr)
    simp

theorem exists_isStem (name : Text) : ∃ s, IsStem name s := by
  rcases Text.notMem_or_exists_last '.'.toUInt8 name with h | ⟨s, extension, rfl, h⟩
  · exact ⟨name, .undotted h⟩
  · exact ⟨s, .dotted h⟩

theorem IsStem.stem_eq (h : IsStem name s) : stem name = s := by
  cases h with
  | dotted h => rw [stem, Text.cutLast?_beq_append_cons h]
  | undotted h => rw [stem, Text.cutLast?_beq_of_notMem h]

theorem isStem_bin (s : Text) : IsStem (s ++ ".bin") s := by
  have hbin : '.'.toUInt8 ∉ Text.utf8 "bin" := by decide
  exact .dotted hbin

theorem IsStem.subset (h : IsStem name s) : s ⊆ name := by
  cases h with
  | dotted h => exact List.subset_append_left _ _
  | undotted h => exact List.Subset.refl _

theorem Splits.image_eq (h : Splits path directory name) (hs : IsStem name s) :
    image path = directory ++ s ++ ".bin" := by
  obtain ⟨rfl, rfl | hclosed, hplain⟩ := h
  · have hcut : name.cutLast? isSlash = none := Text.cutLast?_beq_of_notMem hplain
    rw [image, List.nil_append, hcut]
    simp only [hs.stem_eq, List.nil_append]
  · obtain ⟨front, rfl⟩ := List.getLast?_eq_some_iff.mp hclosed
    have hcut : Text.cutLast? (front ++ '/'.toUInt8 :: name) isSlash = some (front, name) :=
      Text.cutLast?_beq_append_cons hplain
    rw [image, List.append_assoc, List.singleton_append, hcut]
    simp only [hs.stem_eq]
    rfl

theorem Splits.splits_image (h : Splits path directory name) (hs : IsStem name s) :
    Splits (image path) directory (s ++ ".bin") := by
  have hbin : '/'.toUInt8 ∉ Text.utf8 ".bin" := by decide
  refine ⟨by rw [h.image_eq hs, List.append_assoc], h.closed, ?_⟩
  rw [List.mem_append, not_or]
  exact ⟨fun hmem => h.plain (hs.subset hmem), hbin⟩

theorem Splits.image_image (h : Splits path directory name) (hs : IsStem name s) :
    image (image path) = image path := by
  rw [(h.splits_image hs).image_eq (isStem_bin s), h.image_eq hs]

theorem Splits.image_eq_self_iff (h : Splits path directory name) (hs : IsStem name s) :
    image path = path ↔ Text.utf8 ".bin" <:+ name := by
  constructor
  · intro heq
    obtain ⟨-, hname⟩ := (h.splits_image hs).unique (heq ▸ h)
    exact ⟨s, hname⟩
  · rintro ⟨front, rfl⟩
    obtain rfl : front = s := (isStem_bin front).stem_eq.symm.trans hs.stem_eq
    rw [h.image_eq hs, h.whole, List.append_assoc]

theorem Splits.image_eq_image_iff (h : Splits path directory name) (hs : IsStem name s)
    (h' : Splits path' directory' name') (hs' : IsStem name' s') :
    image path = image path' ↔ directory = directory' ∧ s = s' := by
  constructor
  · intro heq
    obtain ⟨hdirectory, hname⟩ := (h.splits_image hs).unique (heq ▸ h'.splits_image hs')
    exact ⟨hdirectory, List.append_cancel_right hname⟩
  · rintro ⟨rfl, rfl⟩
    rw [h.image_eq hs, h'.image_eq hs']

end Path

open B100.Path

/-- An image that is given no path goes beside its source: into the same directory, under the stem
of the source's name with the extension `.bin`. The image of an image is itself, a source is its own
image exactly if its name ends in `.bin`, and two sources share an image exactly if they share the
directory and the stem. -/
theorem images_go_beside_their_sources (s : Text) :
    ∃ directory name stem, Splits s directory name ∧ IsStem name stem ∧
      image s = directory ++ stem ++ ".bin" ∧
      (∀ r : Request, r.source = s → r.output = [] → r.outputPath = image s) ∧
      Splits (image s) directory (stem ++ ".bin") ∧
      image (image s) = image s ∧
      (image s = s ↔ Text.utf8 ".bin" <:+ name) ∧
      ∀ s' directory' name' stem', Splits s' directory' name' → IsStem name' stem' →
        (image s = image s' ↔ directory = directory' ∧ stem = stem') := by
  obtain ⟨directory, name, h⟩ := exists_splits s
  obtain ⟨stem, hs⟩ := exists_isStem name
  refine ⟨directory, name, stem, h, hs, h.image_eq hs, ?_, h.splits_image hs, h.image_image hs,
    h.image_eq_self_iff hs, fun s' directory' name' stem' => h.image_eq_image_iff hs⟩
  rintro r rfl houtput
  rw [Request.outputPath, houtput]
  rfl

end B100
