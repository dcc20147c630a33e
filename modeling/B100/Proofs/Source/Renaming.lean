import B100.Proofs.Assembly.Layout

/-! # Renaming the labels of a source

A renaming changes the text of label lines and of the operands that refer to a label, and nothing
else. Definitions and references are cut out of their lines by different rules, but the items of the
renamed source are the renamed items.
-/

namespace B100

open Text

/-- A name that a line can define and an operand can refer to. -/
structure IsName (name : Text) : Prop where
  nonempty : name ≠ []
  newline : Source.newline ∉ name
  unspaced : name.any isSpaceOrTab = false
  last : ∀ g ∈ name.glyphs.getLast?, g.isBlank = false

theorem IsName.trim_append {name mark : Text} (h : IsName name) (hmark : mark.Visible) :
    (mark ++ name).trim = mark ++ name :=
  hmark.trim_append h.nonempty h.last

namespace Operand

def reference? (operand : Text) : Option Text :=
  (operand.after? "$lbl.").filter fun name => !name.isEmpty && !name.any isSpaceOrTab

def rename (ρ : Text → Text) (operand : Text) : Text :=
  match reference? operand with
  | some name => "$lbl." ++ ρ name
  | none => operand

theorem reference?_eq_some_iff {operand name : Text} :
    reference? operand = some name ↔
      operand = "$lbl." ++ name ∧ name ≠ [] ∧ name.any isSpaceOrTab = false := by
  simp [reference?, Option.filter_eq_some_iff, after?_eq_some_iff]

end Operand

namespace Statement

def reference? : Statement → Option Text
  | push operand => Operand.reference? operand.trim
  | _ => none

/-- The statement with its label renamed. The white space around an operand stays. -/
def rename (ρ : Text → Text) : Statement → Statement
  | push operand => push (operand.within (Operand.rename ρ))
  | s => s

theorem rename_of_reference?_eq_none {ρ : Text → Text} {s : Statement} (h : s.reference? = none) :
    s.rename ρ = s := by
  cases s with
  | push operand =>
    have ho : Operand.reference? operand.trim = none := h
    rw [rename, within_eq_self]
    rw [Operand.rename, ho]
  | _ => rfl

/-- A push is a word, a gap and the operand, and the word alone makes it a push. -/
theorem exists_gap_of_push {text operand : Text} (h : ofText text = .push operand) :
    ∃ m run, text = m ++ run ++ operand ∧ (∀ b ∈ m, isSpaceOrTab b = false) ∧ run.IsGap ∧
      operand.dropWhile isSpaceOrTab = operand ∧
      ∀ operand', withOperands m operand' = .push operand' := by
  unfold ofText at h
  split at h
  · split at h <;> cases h
  · next m rest hcut =>
    obtain ⟨run, htext, hm, hrun⟩ := exists_gap_of_cut hcut
    have hpush : rest.dropWhile isSpaceOrTab = operand ∧
        ∀ operand', withOperands m operand' = .push operand' := by
      simp only [withOperands] at h ⊢
      split_ifs at h ⊢
      simp_all
    obtain ⟨rfl, hpush⟩ := hpush
    exact ⟨m, run, htext, hm, hrun, List.dropWhile_idempotent .., hpush⟩

end Statement

namespace Item

def name? : Item → Option Text
  | label name => some name
  | instruction s _ => s.reference?

def rename (ρ : Text → Text) : Item → Item
  | label name => label (ρ name)
  | instruction s line => instruction (s.rename ρ) line

end Item

namespace Source

def renameLine (ρ : Text → Text) (text : Text) : Text :=
  match LineKind.ofTrimmed text with
  | .comment => text
  | .label => ":" ++ ρ (text.drop 1)
  | .instruction =>
    match Statement.ofText text with
    | .push operand =>
      text.take (text.length - operand.length) ++ operand.within (Operand.rename ρ)
    | _ => text

/-- The source with its labels renamed. The white space around a line stays. -/
def rename (ρ : Text → Text) (src : Text) : Text :=
  join ((pieces src).map (within (renameLine ρ)))

def names (src : Text) : List Text := (items src).filterMap Item.name?

/-- The names of a source go to different names. -/
structure Renaming (ρ : Text → Text) (src : Text) : Prop where
  injective : ∀ m ∈ names src, ∀ n ∈ names src, m ≠ [] → n ≠ [] → ρ m = ρ n → m = n
  isName : ∀ n ∈ names src, n ≠ [] → IsName (ρ n)

variable {ρ : Text → Text} {src raw text name operand : Text}

theorem visible_colon : Visible ":" := by decide

theorem visible_reference : Visible "$lbl." := by decide

theorem ofTrimmed_label (h : name ≠ []) : LineKind.ofTrimmed (":" ++ name) = .label := by
  have hlen : ¬ (glyphs (":" ++ name)).length < 2 := by
    have hpos := List.length_pos_iff.mpr (glyphs_ne_nil h)
    have hone : (glyphs ":").length = 1 := by decide
    rw [glyphs_ascii_append visible_colon.ascii, List.length_append, hone]
    omega
  rw [LineKind.ofTrimmed, decide_eq_false hlen]
  rfl

theorem exists_name_of_label (h : LineKind.ofTrimmed text = .label) :
    ∃ name, text = ":" ++ name ∧ name ≠ [] := by
  unfold LineKind.ofTrimmed at h
  split at h
  · cases h
  · next hcomment =>
    split at h
    · next hcolon =>
      obtain ⟨name, rfl⟩ := List.isPrefixOf_iff_prefix.mp hcolon
      refine ⟨name, rfl, ?_⟩
      rintro rfl
      exact hcomment (by decide)
    · cases h

theorem item?_of_label (htrim : raw.trim = ":" ++ name) (hname : name ≠ []) (i : Nat) :
    (Line.ofRaw raw i).item? = some (.label name) := by
  simp [Line.item?, Line.ofRaw, Line.label, LineKind.classify, htrim, ofTrimmed_label hname]

theorem item?_of_instruction (h : LineKind.ofTrimmed raw.trim = .instruction) (i : Nat) :
    (Line.ofRaw raw i).item? = some (.instruction (Statement.ofText raw.trim) (i + 1)) := by
  simp [Line.item?, Line.ofRaw, LineKind.classify, h]

theorem renameLine_label (h : name ≠ []) : renameLine ρ (":" ++ name) = ":" ++ ρ name := by
  rw [renameLine, ofTrimmed_label h]
  rfl

structure PushRenamed (ρ : Text → Text) (operand text' : Text) : Prop where
  trim : text'.trim = text'
  kind : LineKind.ofTrimmed text' = .instruction
  statement : Statement.ofText text' = .push (operand.within (Operand.rename ρ))
  newline : newline ∉ text'

theorem renameLine_push (htrim : text.trim = text) (hnewline : newline ∉ text)
    (hkind : LineKind.ofTrimmed text = .instruction) (hs : Statement.ofText text = .push operand)
    (href : Operand.reference? operand.trim = some name) (hname : IsName (ρ name)) :
    PushRenamed ρ operand (renameLine ρ text) := by
  have hrename : renameLine ρ text =
      text.take (text.length - operand.length) ++ operand.within (Operand.rename ρ) := by
    rw [renameLine, hkind]
    simp only [hs]
  rw [hrename]
  obtain ⟨m, run, rfl, hm, hrun, hdrop, hpush⟩ := Statement.exists_gap_of_push hs
  have htake : (m ++ run ++ operand).take ((m ++ run ++ operand).length - operand.length) =
      m ++ run := by
    rw [List.length_append, Nat.add_sub_cancel, List.take_left]
  rw [htake]
  obtain ⟨⟨g, gs, hfirst, hg⟩, hs, z, hlast, hz⟩ := hrun.trim_eq_self_iff.mp htrim
  have hne : m ≠ [] := by
    rintro rfl
    cases hfirst
  have hvalue : Operand.rename ρ operand.trim = "$lbl." ++ ρ name := by
    rw [Operand.rename, href]
  have hoperand : operand.within (Operand.rename ρ) = operand.leading ++ ("$lbl." ++ ρ name) := by
    rw [within, hvalue, trailing_eq_nil hlast hz, List.append_nil]
  constructor
  · refine hrun.trim_eq_self_iff.mpr ⟨⟨g, gs, hfirst, hg⟩, ?_⟩
    rw [hoperand, operand.isBlank_leading.glyphs_append,
      glyphs_ascii_append visible_reference.ascii]
    rcases List.eq_nil_or_concat (ρ name).glyphs with hnil | ⟨ns, n, hn⟩
    · exact absurd hnil (glyphs_ne_nil hname.nonempty)
    · refine ⟨operand.leading.glyphs ++ (glyphs "$lbl." ++ ns), n, by simp [hn], ?_⟩
      exact hname.last n (by simp [hn])
  · rw [hrun.kind hne, ← hrun.kind hne operand]
    exact hkind
  · rw [Statement.ofText_gap hm hrun, dropWhile_isSpaceOrTab_within hdrop hvalue (by decide), hpush]
  · simp only [List.mem_append, not_or] at hnewline ⊢
    refine ⟨hnewline.1, notMem_within hnewline.2 ?_⟩
    rw [hvalue, List.mem_append, not_or]
    exact ⟨by decide, hname.newline⟩

theorem renameLine_of_reference?_eq_none (hkind : LineKind.ofTrimmed text = .instruction)
    (h : (Statement.ofText text).reference? = none) : renameLine ρ text = text := by
  rw [renameLine, hkind]
  cases hs : Statement.ofText text with
  | push operand =>
    obtain ⟨m, run, rfl, -⟩ := Statement.exists_gap_of_push hs
    rw [hs] at h
    have ho : operand.within (Operand.rename ρ) = operand := by
      have hpush := Statement.rename_of_reference?_eq_none (ρ := ρ) h
      simpa [Statement.rename] using hpush
    simp only [ho]
    rw [List.length_append, Nat.add_sub_cancel, List.take_left]
  | _ => rfl

theorem item?_renameLine {i : Nat} (hnewline : newline ∉ raw)
    (hname : ∀ n, (Line.ofRaw raw i).item?.bind Item.name? = some n → n ≠ [] → IsName (ρ n)) :
    newline ∉ raw.within (renameLine ρ) ∧
      (Line.ofRaw (raw.within (renameLine ρ)) i).item? =
        (Line.ofRaw raw i).item?.map (Item.rename ρ) := by
  cases hkind : LineKind.ofTrimmed raw.trim with
  | comment =>
    have hsame : raw.within (renameLine ρ) = raw := by
      apply within_eq_self
      rw [renameLine, hkind]
    rw [hsame]
    refine ⟨hnewline, ?_⟩
    rw [item?_of_comment hkind]
    rfl
  | label =>
    obtain ⟨name, htext, hne⟩ := exists_name_of_label hkind
    have hitem := item?_of_label htext hne i
    have hN : IsName (ρ name) := hname name (by rw [hitem]; rfl) hne
    have hline : renameLine ρ raw.trim = ":" ++ ρ name := by
      rw [htext, renameLine_label hne]
    constructor
    · apply notMem_within hnewline
      rw [hline, List.mem_append, not_or]
      exact ⟨by decide, hN.newline⟩
    · have htrim : (raw.within (renameLine ρ)).trim = ":" ++ ρ name := by
        rw [trim_within, hline, hN.trim_append visible_colon]
      rw [item?_of_label htrim hN.nonempty, hitem]
      rfl
  | instruction =>
    have hitem := item?_of_instruction hkind i
    cases href : (Statement.ofText raw.trim).reference? with
    | none =>
      have hsame : raw.within (renameLine ρ) = raw :=
        within_eq_self (renameLine_of_reference?_eq_none hkind href)
      rw [hsame]
      refine ⟨hnewline, ?_⟩
      rw [hitem, Option.map_some, Item.rename, Statement.rename_of_reference?_eq_none href]
    | some name =>
      cases hs : Statement.ofText raw.trim with
      | push operand =>
        rw [hs] at href
        obtain ⟨-, hne, -⟩ := Operand.reference?_eq_some_iff.mp href
        have hN : IsName (ρ name) := hname name (by rw [hitem, hs]; exact href) hne
        have hpush := renameLine_push (trim_trim raw) (notMem_trim hnewline) hkind hs href hN
        have htrim : (raw.within (renameLine ρ)).trim = renameLine ρ raw.trim := by
          rw [trim_within, hpush.trim]
        refine ⟨notMem_within hnewline hpush.newline, ?_⟩
        rw [hitem, item?_of_instruction (htrim ▸ hpush.kind), htrim, hpush.statement, hs]
        rfl
      | _ => simp [hs, Statement.reference?] at href

theorem itemsFrom_rename {raws : List Text} {index : Nat} (hnewline : ∀ raw ∈ raws, newline ∉ raw)
    (hname : ∀ item ∈ itemsFrom index raws, ∀ n, item.name? = some n → n ≠ [] → IsName (ρ n)) :
    (∀ raw ∈ raws.map (within (renameLine ρ)), newline ∉ raw) ∧
      itemsFrom index (raws.map (within (renameLine ρ))) =
        (itemsFrom index raws).map (Item.rename ρ) := by
  induction raws generalizing index with
  | nil => exact ⟨nofun, rfl⟩
  | cons raw raws ih =>
    rw [itemsFrom, List.forall_mem_append] at hname
    rw [List.forall_mem_cons] at hnewline
    obtain ⟨hline, hitem⟩ := item?_renameLine (ρ := ρ) (i := index) hnewline.1 fun n hn hne => by
      obtain ⟨item, hitem, hn⟩ := Option.bind_eq_some_iff.mp hn
      exact hname.1 item (by simp [hitem]) n hn hne
    obtain ⟨hlines, hitems⟩ := ih hnewline.2 hname.2
    rw [List.map_cons, List.forall_mem_cons, itemsFrom, hitem, hitems, itemsFrom, List.map_append,
      Option.toList_map]
    exact ⟨⟨hline, hlines⟩, rfl⟩

theorem items_rename (h : ∀ n ∈ names src, n ≠ [] → IsName (ρ n)) :
    items (rename ρ src) = (items src).map (Item.rename ρ) := by
  obtain ⟨hlines, hitems⟩ := itemsFrom_rename (ρ := ρ)
    (fun raw => newline_notMem_of_mem_pieces) fun item hitem n hn hne =>
      h n (List.mem_filterMap.mpr ⟨item, items_eq_itemsFrom src ▸ hitem, hn⟩) hne
  rw [rename, items_join hlines, hitems, items_eq_itemsFrom]

end Source

end B100
