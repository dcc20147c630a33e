import B100.Proofs.Settings.Document
import B100.Proofs.Source.Lines
import B100.Proofs.Text.LowerCase
import B100.Proofs.Text.Numeral

/-! # Names in documents

The names in a document come from single lines. A line brings a section or an entry into the
document or leaves a value open, and in each case the names stay as they have to be: in lower case,
trimmed, and without a line feed.
-/

namespace B100

open Source (newline)

namespace Text

variable {s t u mark : Text}

theorem exists_of_cutLast?_eq_some {p : UInt8 → Bool} (h : s.cutLast? p = some (t, u)) :
    ∃ b, s = t ++ b :: u := by
  unfold cutLast? at h
  split at h
  · cases h
  · next after before hcut =>
    obtain ⟨b, hs, -⟩ := exists_of_cut_eq_some hcut
    obtain ⟨rfl, rfl⟩ := Prod.mk.inj (Option.some.inj h)
    refine ⟨b, ?_⟩
    rw [← List.reverse_reverse s, hs]
    simp

theorem eq_of_cutText?_eq_some (h : cutText? s mark = some (t, u)) : s = t ++ mark ++ u := by
  induction s generalizing t with
  | nil =>
    unfold cutText? at h
    split at h
    · next hmark =>
      obtain ⟨rfl, rfl⟩ := Prod.mk.inj (Option.some.inj h)
      rw [List.isEmpty_iff.mp hmark]
      rfl
    · cases h
  | cons b s ih =>
    unfold cutText? at h
    split at h
    · next rest hrest =>
      obtain ⟨rfl, rfl⟩ := Prod.mk.inj (Option.some.inj h)
      exact after?_eq_some_iff.mp hrest
    · obtain ⟨⟨before, rest⟩, hcut, h⟩ := Option.map_eq_some_iff.mp h
      obtain ⟨rfl, rfl⟩ := Prod.mk.inj h
      rw [ih hcut]
      rfl

theorem notMem_of_notMem_dropLast {b : UInt8} (ht : t ≠ []) (h : b ∉ (s ++ t).dropLast) :
    b ∉ s := by
  rw [List.dropLast_append_of_ne_nil ht] at h
  exact fun hb => h (List.mem_append_left _ hb)

theorem notMem_dropLast_trimLeft {b : UInt8} (h : b ∉ s.dropLast) : b ∉ s.trimLeft.dropLast := by
  obtain ⟨lead, -, hs⟩ := exists_isBlank_append_trimLeft s
  intro hb
  have hne : s.trimLeft ≠ [] := by
    rintro hnil
    rw [hnil] at hb
    cases hb
  rw [← hs, List.dropLast_append_of_ne_nil hne] at h
  exact h (List.mem_append_right _ hb)

end Text

theorem Document.newline_notMem_dropLast {s p : Text} (h : p ∈ pieces s) :
    newline ∉ p.dropLast := by
  have hpart : ∀ q ∈ s.splitOn newline, newline ∉ q := fun q hq =>
    Source.newline_notMem_of_mem_pieces hq
  rcases List.mem_append.mp h with h | h
  · obtain ⟨q, hq, rfl⟩ := List.mem_map.mp h
    rw [List.dropLast_concat]
    exact hpart q (List.dropLast_subset _ hq)
  · have hlast := hpart p (List.mem_of_getLast? (Option.mem_toList.mp h))
    exact fun hp => hlast (List.dropLast_subset _ hp)

/-- The name of an entry as it is written on a line. -/
structure IsSpelled (name : Text) : Prop where
  newline_notMem : newline ∉ name
  trimmed : name.trim = name

structure IsEntryName (name : Text) : Prop extends IsSpelled name where
  nonempty : name ≠ []
  lower : name.lower = name

structure IsSectionName (name : Text) : Prop where
  newline_notMem : newline ∉ name
  lower : name = "DEFAULT" ∨ name.lower = name

theorem newline_notMem_lower {s : Text} (h : newline ∉ s) : newline ∉ s.lower :=
  fun hs => h (Text.mem_of_mem_lower (by decide) (by decide +kernel) (by decide) hs)

theorem IsSpelled.lower {name : Text} (h : IsSpelled name) (hne : name ≠ []) :
    IsEntryName name.lower where
  newline_notMem := newline_notMem_lower h.newline_notMem
  trimmed := Text.trim_lower h.trimmed
  nonempty := Text.lower_ne_nil hne
  lower := Text.lower_lower name

theorem isSectionName_storedName {name : Text} (h : newline ∉ name) :
    IsSectionName (Document.storedName name) := by
  unfold Document.storedName
  split
  · exact ⟨h, .inl ‹_›⟩
  · exact ⟨newline_notMem_lower h, .inr (Text.lower_lower name)⟩

theorem isSpelled_trim {name : Text} (h : newline ∉ name) : IsSpelled name.trim :=
  ⟨Text.notMem_trim h, Text.trim_trim name⟩

theorem isSpelled_number (n : Nat) : IsSpelled ("#" ++ Text.ofNat n) := by
  have hvisible := Text.Visible.append (s := "#") (by decide) (Text.visible_ofNat n)
  exact ⟨hvisible.clean.newline_notMem, hvisible.clean.trim_eq_self⟩

def Unfinished.name : Unfinished → Text
  | quoted name _ _ _ | continued name _ => name

namespace Document

/-- All names of the document are as they have to be. -/
structure Named (d : Document) : Prop where
  sections : ∀ name ∈ d.names, IsSectionName name
  entries : ∀ sectionName entry, d.Holds sectionName entry → IsEntryName entry.1

theorem Named.addSection {d : Document} (h : d.Named) {name : Text} (hname : IsSectionName name) :
    (d.addSection name).Named where
  sections n hn := by
    rcases mem_names_addSection.mp hn with hn | rfl
    · exact h.sections n hn
    · exact hname
  entries n entry he := h.entries n entry (holds_addSection.mp he)

theorem Named.put {d : Document} (h : d.Named) {sectionName name value : Text}
    (hname : IsEntryName name) : (d.put sectionName name value).Named where
  sections n hn := h.sections n (names_put ▸ hn)
  entries n entry he := by
    rcases holds_put.mp he with ⟨-, -, rfl⟩ | ⟨he, -⟩
    · exact hname
    · exact h.entries n entry he

end Document

namespace Reader

variable {r r' : Reader} {name rest piece : Text}

theorem isSpelled_of_entry {line : Text} (hline : newline ∉ line.dropLast)
    (h : entry line = .ok (name, rest)) : IsSpelled name := by
  unfold entry at h
  split at h
  · next mark hmark =>
    have hne : mark ≠ [] := by
      unfold nameQuote? at hmark
      split_ifs at hmark <;> cases hmark <;> decide
    split at h
    · cases h
    · next quoted after hcut =>
      split at h
      · cases h
      · obtain ⟨rfl, -⟩ := Prod.mk.inj (Except.ok.inj h)
        have hdrop := Text.eq_of_cutText?_eq_some hcut
        rw [← List.take_append_drop mark.length line, hdrop, List.append_assoc,
          ← List.append_assoc] at hline
        refine isSpelled_trim fun hq => ?_
        exact Text.notMem_of_notMem_dropLast (by simp [hne]) hline (List.mem_append_right _ hq)
  · split at h
    · cases h
    · cases h
    · next before after _ hcut =>
      obtain ⟨rfl, -⟩ := Prod.mk.inj (Except.ok.inj h)
      obtain ⟨b, rfl, -⟩ := Text.exists_of_cut_eq_some hcut
      exact isSpelled_trim (Text.notMem_of_notMem_dropLast (List.cons_ne_nil _ _) hline)

structure Named (r : Reader) : Prop where
  document : r.document.Named
  unfinished : ∀ u ∈ r.unfinished, IsSpelled u.name

theorem named_start : start.Named where
  document := by
    have hempty : Document.Named [] := by
      refine ⟨fun _ hn => ?_, ?_⟩
      · cases hn
      · rintro _ _ ⟨_, hs, -⟩
        cases hs
    have hdefault : IsSectionName Document.defaultName := ⟨by decide, .inr (by decide +kernel)⟩
    exact hempty.addSection hdefault
  unfinished := nofun

theorem Named.leave (hr : r.Named) {u : Unfinished} (hu : IsSpelled u.name) :
    Named { r with unfinished := some u } where
  document := hr.document
  unfinished _ hu' := Option.some.inj hu' ▸ hu

theorem Named.put {value : Text} (hr : r.Named) (hname : IsSpelled name)
    (h : r.put name value = .ok r') : r'.Named := by
  unfold Reader.put at h
  split at h
  · cases h
  · next hne =>
    obtain rfl := Except.ok.inj h
    exact ⟨hr.document.put (hname.lower (by simpa using hne)), nofun⟩

theorem Named.header {line : Text} (hr : r.Named) (hline : newline ∉ line.dropLast)
    (h : r.header line = .ok r') : r'.Named := by
  unfold Reader.header at h
  split at h
  · cases h
  · next front after hcut =>
    obtain ⟨b, rfl⟩ := Text.exists_of_cutLast?_eq_some hcut
    have hfront := Text.notMem_of_notMem_dropLast (List.cons_ne_nil _ _) hline
    dsimp only at h
    split at h
    · cases h
    · obtain rfl := Except.ok.inj h
      have hname : newline ∉ front.drop 1 := fun hm => hfront (List.mem_of_mem_drop hm)
      exact ⟨hr.document.addSection (isSectionName_storedName hname), hr.unfinished⟩

theorem Named.value (hr : r.Named) (hname : IsSpelled name) (h : r.value name rest = .ok r') :
    r'.Named := by
  unfold Reader.value at h
  split at h
  · exact hr.put hname h
  all_goals exact Except.ok.inj h ▸ hr.leave hname

theorem Named.line {line : Text} (hr : r.Named) (hline : newline ∉ line.dropLast)
    (h : r.line line = .ok r') : r'.Named := by
  unfold Reader.line at h
  split at h
  · exact Except.ok.inj h ▸ hr
  · split at h
    · exact Except.ok.inj h ▸ hr
    · split at h
      · exact hr.header hline h
      · split at h
        · cases h
        · next name rest hentry =>
          split at h
          · exact Named.value (r := { r with count := r.count + 1 }) ⟨hr.document, hr.unfinished⟩
              (isSpelled_number _) h
          · exact hr.value (isSpelled_of_entry hline hentry) h

theorem Named.next (hr : r.Named) (hpiece : newline ∉ piece.dropLast) (h : r.next piece = .ok r') :
    r'.Named := by
  unfold Reader.next at h
  split at h
  · exact hr.line (Text.notMem_dropLast_trimLeft hpiece) h
  · next name mark opening begun hu =>
    have hname : IsSpelled name := hr.unfinished _ hu
    split at h
    · exact hr.put hname h
    · split at h
      · exact Except.ok.inj h ▸ hr.leave hname
      · cases h
  · next name begun hu =>
    have hname : IsSpelled name := hr.unfinished _ hu
    dsimp only at h
    split at h
    · exact hr.put hname h
    · split at h
      · exact Except.ok.inj h ▸ hr.leave hname
      · exact hr.put hname h

theorem Named.finish (hr : r.Named) {d : Document} (h : r.finish = .ok d) : d.Named := by
  unfold Reader.finish at h
  split at h
  · exact Except.ok.inj h ▸ hr.document
  · cases h
  · next name begun hu =>
    cases hput : r.put name begun with
    | error e =>
      rw [hput] at h
      cases h
    | ok r' =>
      rw [hput] at h
      obtain rfl := Except.ok.inj h
      exact (hr.put (hr.unfinished _ hu) hput).document

end Reader

/-- Whatever is read, its names are as they have to be. -/
theorem Document.named_of_read {s : Text} {d : Document} (h : read s = .ok d) : d.Named := by
  unfold read at h
  cases hr : (pieces (dropMark s)).foldlM Reader.next Reader.start with
  | error e =>
    rw [hr] at h
    cases h
  | ok r =>
    rw [hr] at h
    have hnamed : r.Named := by
      refine foldlM_keeps (P := Reader.Named) ?_ Reader.named_start hr
      intro piece hpiece r r' hr hnext
      exact hr.next (newline_notMem_dropLast hpiece) hnext
    exact hnamed.finish h

end B100
