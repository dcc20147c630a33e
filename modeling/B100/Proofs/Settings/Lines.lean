import B100.Encoding.Operand
import B100.Proofs.Text.LowerCase
import B100.Proofs.Source.Lines
import B100.Settings.Parse
import Mathlib.Data.List.Forall2

/-! # Plain lines of a settings file

What the reader does with the lines that a settings file mostly consists of: blank lines, comments,
headers, and entries whose names are words and whose values need no quotes.
-/

namespace B100

open Text

open Source (newline)

namespace Operand

theorem isWord_iff {s : Text} : isWord s = true ↔ s ≠ [] ∧ ∀ b ∈ s, isWordByte b = true := by
  simp [isWord]

theorem lt_of_isWordByte {b : UInt8} (h : isWordByte b = true) : b < 0x80 := by
  simp only [isWordByte, isDigit, Bool.or_eq_true, Bool.and_eq_true, decide_eq_true_eq,
    beq_iff_eq] at h
  rcases h with ((⟨-, h⟩ | ⟨-, h⟩) | ⟨-, h⟩) | rfl
  · exact UInt8.lt_of_le_of_lt h (by decide)
  · exact UInt8.lt_of_le_of_lt h (by decide)
  · exact UInt8.lt_of_le_of_lt h (by decide)
  · decide

theorem isWordByte_lowerByte (b : UInt8) : isWordByte (lowerByte b) = isWordByte b :=
  forall_byte (P := fun b => isWordByte (lowerByte b) = isWordByte b) (by decide +kernel) b

theorem isWord_map_lowerByte (s : Text) : isWord (s.map lowerByte) = isWord s := by
  simp only [isWord, List.isEmpty_map, List.all_map, Function.comp_def, isWordByte_lowerByte]

theorem isWord_lower {s : Text} (h : isWord s = true) : isWord s.lower = true := by
  have hascii : ∀ b ∈ s, b < 0x80 := fun b hb => lt_of_isWordByte ((isWord_iff.mp h).2 b hb)
  rw [lower_of_ascii hascii, isWord_map_lowerByte, h]

end Operand

def isPlainByte (b : UInt8) : Bool :=
  Operand.isWordByte b || b == '+'.toUInt8 || b == '-'.toUInt8

/-- A value that is written as it is. -/
structure IsPlain (s : Text) : Prop where
  nonempty : s ≠ []
  plain : ∀ b ∈ s, isPlainByte b = true

instance (s : Text) : Decidable (IsPlain s) :=
  decidable_of_iff (s ≠ [] ∧ s.all isPlainByte = true)
    ⟨fun h => ⟨h.1, List.all_eq_true.mp h.2⟩, fun h => ⟨h.nonempty, List.all_eq_true.mpr h.plain⟩⟩

theorem forall_plain {P : UInt8 → Prop}
    (h : ∀ n < 128, isPlainByte (UInt8.ofNat n) = true → P (UInt8.ofNat n)) {b : UInt8}
    (hb : isPlainByte b = true) : P b := by
  have hascii : b < 0x80 := by
    simp only [isPlainByte, Bool.or_eq_true, beq_iff_eq] at hb
    rcases hb with (hb | rfl) | rfl
    · exact Operand.lt_of_isWordByte hb
    · decide
    · decide
  exact forall_ascii (P := fun b => isPlainByte b = true → P b) h hascii hb

theorem visible_of_isPlainByte {b : UInt8} (h : isPlainByte b = true) : 0x20 < b ∧ b < 0x7F :=
  forall_plain (P := fun b => 0x20 < b ∧ b < 0x7F) (by decide) h

theorem Reader.isCommentMark_of_isPlainByte {b : UInt8} (h : isPlainByte b = true) :
    isCommentMark b = false :=
  forall_plain (P := fun b => isCommentMark b = false) (by decide) h

theorem Reader.isDelimiter_of_isPlainByte {b : UInt8} (h : isPlainByte b = true) :
    isDelimiter b = false :=
  forall_plain (P := fun b => isDelimiter b = false) (by decide) h

namespace IsPlain

variable {s : Text}

theorem visible (h : IsPlain s) : s.Visible :=
  ⟨h.nonempty, fun b hb => visible_of_isPlainByte (h.plain b hb)⟩

theorem notMem (h : IsPlain s) {b : UInt8} (hb : isPlainByte b = false) : b ∉ s := by
  intro hs
  cases hb.symm.trans (h.plain b hs)

theorem of_isWord (h : Operand.isWord s = true) : IsPlain s where
  nonempty := (Operand.isWord_iff.mp h).1
  plain b hb := by simp [isPlainByte, (Operand.isWord_iff.mp h).2 b hb]

theorem isPrefixOf_eq_false (h : IsPlain s) {b : UInt8} (hb : isPlainByte b = false)
    (mark rest : Text) : (b :: mark).isPrefixOf (s ++ rest) = false := by
  obtain ⟨c, t, rfl⟩ := List.exists_cons_of_ne_nil h.nonempty
  have hc : (b == c) = false := by
    rw [beq_eq_false_iff_ne]
    rintro rfl
    exact h.notMem hb List.mem_cons_self
  rw [List.cons_append, List.isPrefixOf_cons_cons, hc, Bool.false_and]

end IsPlain

namespace Document

theorem dropMark_eq_self {s : Text} (h : ∀ b ∈ s.head?, b < 0xEF) : dropMark s = s := by
  unfold dropMark
  split
  · exact absurd (h _ rfl) (by decide)
  · exact absurd (h _ rfl) (by decide)
  · exact absurd (h _ rfl) (by decide)
  · rfl

/-- The pieces of joined lines are the lines, with or without a line feed. -/
theorem forall₂_pieces_join {ls : List Text} (hne : ls ≠ []) (h : ∀ l ∈ ls, newline ∉ l) :
    List.Forall₂ (fun l piece => ∃ tail : Text, tail.IsBlank ∧ piece = l ++ tail) ls
      (pieces (Source.join ls)) := by
  have hsplit : List.splitOn '\n'.toUInt8 (Source.join ls) = ls := Source.pieces_join hne h
  have hnil : IsBlank [] := nofun
  obtain ⟨front, last, rfl⟩ := (List.eq_nil_or_concat ls).resolve_left hne
  rw [List.concat_eq_append] at hsplit ⊢
  have hpieces : pieces (Source.join (front ++ [last])) =
      front.map (· ++ [newline]) ++ [last] := by
    rw [pieces, hsplit, List.dropLast_concat, List.getLast?_concat]
    rfl
  rw [hpieces]
  refine List.rel_append ?_ (.cons ⟨[], hnil, (List.append_nil last).symm⟩ .nil)
  rw [List.forall₂_map_right_iff, List.forall₂_same]
  exact fun l _ => ⟨[newline], by decide, rfl⟩

end Document

namespace Reader

/-- A blank line or a comment. -/
def IsRemark (l : Text) : Prop :=
  newline ∉ l ∧ ∃ lead rest : Text, l = lead ++ rest ∧ lead.IsBlank ∧
    ∀ b ∈ rest.head?, isCommentMark b = true

def headerLine (name : Text) : Text := '['.toUInt8 :: (name ++ [']'.toUInt8])

def entryLine (name value : Text) : Text := name ++ " = " ++ value

variable {r : Reader} {name value tail : Text}

theorem visible_of_isCommentMark {b : UInt8} (h : isCommentMark b = true) :
    0x20 < b ∧ b < 0x7F := by
  simp only [isCommentMark, Bool.or_eq_true, beq_iff_eq] at h
  rcases h with rfl | rfl <;> decide

theorem next_remark {l : Text} (hr : r.unfinished = none) (hl : IsRemark l) (ht : tail.IsBlank) :
    r.next (l ++ tail) = .ok r := by
  obtain ⟨-, lead, rest, rfl, hlead, hrest⟩ := hl
  unfold next
  rw [hr, List.append_assoc]
  dsimp only
  rw [hlead.trimLeft_append]
  cases rest with
  | nil =>
    rw [List.nil_append, ht.trimLeft_eq_nil]
    rfl
  | cons b rest =>
    have hb := hrest b rfl
    rw [List.cons_append, trimLeft_cons (visible_of_isCommentMark hb), line, if_pos hb]

theorem next_header (hr : r.unfinished = none) (hname : name ≠ []) (ht : tail.IsBlank) :
    r.next (headerLine name ++ tail) =
      .ok { r with
        document := r.document.addSection (Document.storedName name)
        current := Document.storedName name
        count := 1 } := by
  have hcut : cutLast? (headerLine name ++ tail) (· == ']'.toUInt8) =
      some ('['.toUInt8 :: name, tail) := by
    have hclose := ht.notMem (b := ']'.toUInt8) (by decide)
    have hline : headerLine name ++ tail = ('['.toUInt8 :: name) ++ ']'.toUInt8 :: tail := by
      simp [headerLine]
    rw [hline]
    exact cutLast?_append_cons (beq_self_eq_true _) fun c hc =>
      beq_eq_false_iff_ne.mpr (ne_of_mem_of_not_mem hc hclose)
  unfold next
  rw [hr]
  dsimp only
  have htrim : trimLeft (headerLine name ++ tail) = headerLine name ++ tail :=
    trimLeft_cons (by decide) _
  have hline : r.line (headerLine name ++ tail) = r.header (headerLine name ++ tail) := rfl
  rw [htrim, hline, header, hcut]
  simp [hname, hr]

theorem plainValue_eq_self (h : IsPlain value) : plainValue value = value := by
  have hcomment : ∀ b ∈ value, isCommentMark b = false := fun b hb =>
    isCommentMark_of_isPlainByte (h.plain b hb)
  have hquoted : ∀ mark, isPlainByte mark = false → isQuotedBy mark value = false := by
    intro mark hmark
    have hhead : (value.head? == some mark) = false := by
      rw [beq_eq_false_iff_ne]
      exact fun hm => h.notMem hmark (List.mem_of_head? hm)
    simp only [isQuotedBy, hhead, Bool.and_false, Bool.false_and]
  have hsingle := hquoted '\''.toUInt8 (by decide)
  have hdouble := hquoted '"'.toUInt8 (by decide)
  simp only [plainValue, cut_of_forall hcomment, h.visible.clean.trim_eq_self, hsingle, hdouble,
    Bool.or_self, Bool.false_eq_true, if_false]

theorem ofText_plain (h : IsPlain value) (ht : tail.IsBlank) :
    Value.ofText (' '.toUInt8 :: (value ++ tail)) = .complete value := by
  have hleft : trimLeft (' '.toUInt8 :: (value ++ tail)) = value ++ tail := by
    have hspace : IsBlank [' '.toUInt8] := by decide
    obtain ⟨b, t, rfl⟩ := List.exists_cons_of_ne_nil h.nonempty
    rw [← List.singleton_append, hspace.trimLeft_append, List.cons_append,
      trimLeft_cons (visible_of_isPlainByte (h.plain b List.mem_cons_self))]
  have hquote : valueQuote? (value ++ tail) = none := by
    have htriple := h.isPrefixOf_eq_false (b := '"'.toUInt8) (by decide) "\"\"" tail
    have hback := h.isPrefixOf_eq_false (b := 0x60) (by decide) "" tail
    unfold valueQuote?
    rw [if_neg, if_neg]
    · exact fun hp => by cases hback.symm.trans hp
    · rw [Bool.and_eq_true]
      exact fun hp => by cases htriple.symm.trans hp.1
  have htrim : trim (value ++ tail) = value := by
    rw [ht.append_trim, h.visible.clean.trim_eq_self]
  have hslash : endsWith value '\\'.toUInt8 = false := by
    rw [endsWith, beq_eq_false_iff_ne]
    exact fun hs => h.notMem (b := '\\'.toUInt8) (by decide) (List.mem_of_getLast? hs)
  simp only [Value.ofText, hleft, hquote, htrim, hslash, Bool.false_eq_true, if_false,
    plainValue_eq_self h]

theorem entry_plain (hname : Operand.isWord name = true) (rest : Text) :
    entry (name ++ ' '.toUInt8 :: '='.toUInt8 :: rest) = .ok (name, rest) := by
  have h := IsPlain.of_isWord hname
  have hquote : nameQuote? (name ++ ' '.toUInt8 :: '='.toUInt8 :: rest) = none := by
    have htriple := h.isPrefixOf_eq_false (b := '"'.toUInt8) (by decide) "\"\""
    have hquote := h.isPrefixOf_eq_false (b := '"'.toUInt8) (by decide) ""
    have hback := h.isPrefixOf_eq_false (b := 0x60) (by decide) ""
    unfold nameQuote?
    rw [if_neg, if_neg, if_neg]
    · exact fun hp => by cases (hback _).symm.trans hp
    · exact fun hp => by cases (hquote _).symm.trans hp
    · rw [Bool.and_eq_true]
      exact fun hp => by cases (htriple _).symm.trans hp.1
  have hcut : cut (name ++ ' '.toUInt8 :: '='.toUInt8 :: rest) isDelimiter =
      (name ++ [' '.toUInt8], some rest) := by
    have hsplit : name ++ ' '.toUInt8 :: '='.toUInt8 :: rest =
        (name ++ [' '.toUInt8]) ++ '='.toUInt8 :: rest := by simp
    rw [hsplit]
    refine cut_append_cons (fun b hb => ?_) (by decide) rest
    rcases List.mem_append.mp hb with hb | hb
    · exact isDelimiter_of_isPlainByte (h.plain b hb)
    · obtain rfl := List.mem_singleton.mp hb
      decide
  have hspace : IsBlank [' '.toUInt8] := by decide
  obtain ⟨b, t, rfl⟩ := List.exists_cons_of_ne_nil h.nonempty
  unfold entry
  rw [hquote]
  dsimp only
  rw [hcut]
  simp only [List.cons_append]
  rw [← List.cons_append, hspace.append_trim, h.visible.clean.trim_eq_self]

theorem next_entry (hr : r.unfinished = none) (hname : Operand.isWord name = true)
    (hvalue : IsPlain value) (ht : tail.IsBlank) :
    r.next (entryLine name value ++ tail) =
      .ok { r with
        document := r.document.put r.current name.lower value
        unfinished := none } := by
  have hplain := IsPlain.of_isWord hname
  have hdash : name ≠ "-" := by
    rintro rfl
    revert hname
    decide
  have hentry := entry_plain hname (' '.toUInt8 :: (value ++ tail))
  have hline : entryLine name value ++ tail =
      name ++ ' '.toUInt8 :: '='.toUInt8 :: ' '.toUInt8 :: (value ++ tail) := by
    have hmid : (" = " : Text) = [' '.toUInt8, '='.toUInt8, ' '.toUInt8] := by decide
    simp [entryLine, hmid]
  unfold next
  rw [hr, hline]
  dsimp only
  obtain ⟨b, t, rfl⟩ := List.exists_cons_of_ne_nil hplain.nonempty
  have hb := hplain.plain b List.mem_cons_self
  have hopen : (b == '['.toUInt8) = false := by
    rw [beq_eq_false_iff_ne]
    exact fun hb => hplain.notMem (b := '['.toUInt8) (by decide) (hb ▸ List.mem_cons_self)
  rw [List.cons_append, trimLeft_cons (visible_of_isPlainByte hb), line,
    isCommentMark_of_isPlainByte hb, hopen, ← List.cons_append, hentry]
  simp [hdash, Reader.value, ofText_plain hvalue ht, put]

end Reader

end B100
