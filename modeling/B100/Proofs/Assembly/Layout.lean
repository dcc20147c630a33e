import B100.Proofs.Assembly.Items
import B100.Proofs.Encoding.Statement
import Mathlib.Data.List.Forall2

/-! # Layout

Comments, white space around a line, the kind of line ends, a line feed at the end of a source and
the spacing after a mnemonic are layout: changing them changes no item of the source, so at most
the number of the line in an error.
-/

namespace B100

namespace Source

def itemsFrom (index : Nat) : List Text → List Item
  | [] => []
  | raw :: raws => (Line.ofRaw raw index).item?.toList ++ itemsFrom (index + 1) raws

theorem itemsFrom_append (index : Nat) (xs ys : List Text) :
    itemsFrom index (xs ++ ys) = itemsFrom index xs ++ itemsFrom (index + xs.length) ys := by
  induction xs generalizing index with
  | nil => rfl
  | cons x xs ih => simp [itemsFrom, ih, Nat.add_assoc, Nat.add_comm 1]

theorem filterMap_item?_zipIdx (index : Nat) (raws : List Text) :
    ((raws.zipIdx index).map fun (raw, i) => Line.ofRaw raw i).filterMap Line.item? =
      itemsFrom index raws := by
  induction raws generalizing index with
  | nil => rfl
  | cons raw raws ih =>
    rw [List.zipIdx_cons, List.map_cons, List.filterMap_cons, ih, itemsFrom]
    cases (Line.ofRaw raw index).item? <;> rfl

theorem item?_of_comment {raw : Text} (h : LineKind.classify raw = .comment) (i : Nat) :
    (Line.ofRaw raw i).item? = none := by
  simp [Line.item?, Line.ofRaw, h]

/-- An empty piece at the end says nothing, whether or not it counts as a line. -/
theorem items_eq_itemsFrom (src : Text) : items src = itemsFrom 0 (pieces src) := by
  rw [items, lines, filterMap_item?_zipIdx, rawLines_eq, dropFinalEmpty]
  split
  · next hlast =>
    have hlast : (pieces src).getLast? = some [] := by simpa using hlast
    obtain ⟨ps, hps⟩ := List.getLast?_eq_some_iff.mp hlast
    rw [hps, List.dropLast_concat, itemsFrom_append, itemsFrom, item?_of_comment rfl, itemsFrom]
    simp
  · rfl

theorem items_join {ps : List Text} (h : ∀ p ∈ ps, newline ∉ p) :
    items (join ps) = itemsFrom 0 ps := by
  cases ps with
  | nil => rfl
  | cons p ps => rw [items_eq_itemsFrom, pieces_join (List.cons_ne_nil p ps) h]

def Alike (raw raw' : Text) : Prop := ∀ i, (Line.ofRaw raw' i).item? = (Line.ofRaw raw i).item?

theorem alike_of_trim_eq {raw raw' : Text} (h : raw'.trim = raw.trim) : Alike raw raw' := by
  intro i
  simp only [Line.item?, Line.label, Line.ofRaw, LineKind.classify, h]

theorem itemsFrom_of_alike {raws raws' : List Text} (h : List.Forall₂ Alike raws raws')
    (index : Nat) : itemsFrom index raws' = itemsFrom index raws := by
  induction h generalizing index with
  | nil => rfl
  | cons hraw _ ih => rw [itemsFrom, hraw, ih, ← itemsFrom]

theorem itemsFrom_renumber {f : Int → Int} {raws : List Text} {index index' : Nat}
    (h : ∀ i < raws.length, f (((index + i : Nat) : Int) + 1) = ((index' + i : Nat) : Int) + 1) :
    itemsFrom index' raws = (itemsFrom index raws).map (Item.renumber f) := by
  induction raws generalizing index index' with
  | nil => rfl
  | cons raw raws ih =>
    have hnumber : f ((index : Int) + 1) = (index' : Int) + 1 := h 0 (Nat.zero_lt_succ _)
    have hitem : (Line.ofRaw raw index').item? =
        (Line.ofRaw raw index).item?.map (Item.renumber f) := by
      cases hk : LineKind.classify raw <;>
        simp [Line.item?, Line.ofRaw, Line.label, hk, Item.renumber, hnumber]
    have htail : itemsFrom (index' + 1) raws =
        (itemsFrom (index + 1) raws).map (Item.renumber f) := by
      apply ih
      intro i hi
      have hi := h (i + 1) (Nat.succ_lt_succ hi)
      rwa [Nat.add_right_comm, Nat.add_assoc, Nat.add_right_comm index', Nat.add_assoc index']
    rw [itemsFrom, hitem, htail, itemsFrom, List.map_append, Option.toList_map]

end Source

/-- Line ends of the other kind: a carriage return before every line feed. -/
def Text.crlf (src : Text) : Text :=
  src.flatMap fun b => if b = Source.newline then ['\r'.toUInt8, b] else [b]

namespace Source

theorem pieces_crlf (src : Text) :
    List.Forall₂ (fun p q => q = p ∨ q = p ++ ['\r'.toUInt8]) (pieces src) (pieces src.crlf) := by
  induction src with
  | nil => exact .cons (.inl rfl) .nil
  | cons b src ih =>
    by_cases hb : b = newline
    · have hc : Text.crlf (b :: src) = '\r'.toUInt8 :: newline :: Text.crlf src := by
        simp [Text.crlf, hb]
      rw [hc, pieces_cons, if_pos hb, pieces_cons, if_neg (by decide), pieces_cons, if_pos rfl]
      exact .cons (.inr rfl) ih
    · have hc : Text.crlf (b :: src) = b :: Text.crlf src := by
        simp [Text.crlf, hb]
      rw [hc, pieces_cons, if_neg hb, pieces_cons, if_neg hb]
      generalize pieces src = ps, pieces (Text.crlf src) = qs at ih
      cases ih with
      | nil => exact .nil
      | cons hp ht => exact .cons (hp.imp (congrArg (b :: ·)) (congrArg (b :: ·))) ht

theorem items_crlf (src : Text) : items src.crlf = items src := by
  rw [items_eq_itemsFrom, items_eq_itemsFrom]
  apply itemsFrom_of_alike
  apply (pieces_crlf src).imp
  rintro p q (rfl | rfl)
  · exact alike_of_trim_eq rfl
  · exact alike_of_trim_eq (Text.IsBlank.append_trim (by decide) p)

theorem items_append_newline (src : Text) : items (src ++ [newline]) = items src := by
  have hfinal : pieces [] = [[]] := rfl
  rw [items_eq_itemsFrom, pieces_append_newline, hfinal, itemsFrom_append, itemsFrom,
    item?_of_comment rfl, items_eq_itemsFrom]
  simp [itemsFrom]

theorem items_join_of_alike {pre post : List Text} {raw raw' : Text} (h : Alike raw raw')
    (hps : ∀ p ∈ pre ++ raw :: post, newline ∉ p) (hraw : newline ∉ raw') :
    items (join (pre ++ raw' :: post)) = items (join (pre ++ raw :: post)) := by
  rw [items_join hps, items_join, itemsFrom_append, itemsFrom_append, itemsFrom, h, ← itemsFrom]
  intro p hp
  rcases List.mem_append.mp hp with hp | hp
  · exact hps p (List.mem_append_left _ hp)
  · rcases List.mem_cons.mp hp with rfl | hp
    · exact hraw
    · exact hps p (List.mem_append_right _ (List.mem_cons_of_mem _ hp))

end Source

namespace Text

variable {m run rest : Text}

theorem IsGap.kind (h : run.IsGap) (hm : m ≠ []) (rest : Text) :
    LineKind.ofTrimmed (m ++ run ++ rest) =
      if ("#" : Text).isPrefixOf m then .comment
      else if (":" : Text).isPrefixOf m then .label else .instruction := by
  have hlen : ¬ (m ++ run ++ rest).glyphs.length < 2 := by
    have hmlen := List.length_pos_iff.mpr (glyphs_ne_nil hm)
    have hrlen := List.length_pos_iff.mpr (glyphs_ne_nil h.nonempty)
    rw [h.glyphs, List.length_append, List.length_append]
    omega
  obtain ⟨b, m, rfl⟩ := List.exists_cons_of_ne_nil hm
  have hmark : ∀ (c : UInt8) (t : Text), [c].isPrefixOf (b :: t) = (c == b) := by
    intro c t
    simp only [List.isPrefixOf, Bool.and_true]
  have hcomment : ∀ t : Text, ("#" : Text).isPrefixOf (b :: t) = ('#'.toUInt8 == b) := hmark _
  have hlabel : ∀ t : Text, (":" : Text).isPrefixOf (b :: t) = (':'.toUInt8 == b) := hmark _
  rw [LineKind.ofTrimmed, decide_eq_false hlen, Bool.false_or, List.cons_append, List.cons_append,
    hcomment, hcomment, hlabel, hlabel]

end Text

namespace Source

theorem alike_gap {lead m run run' rest trail : Text} (hlead : lead.IsBlank)
    (htrail : trail.IsBlank) (htrim : (m ++ run ++ rest).trim = m ++ run ++ rest)
    (hkind : LineKind.ofTrimmed (m ++ run ++ rest) = .instruction)
    (hm : ∀ b ∈ m, Text.isSpaceOrTab b = false) (hrun : run.IsGap) (hrun' : run'.IsGap) :
    Alike (lead ++ (m ++ run ++ rest) ++ trail) (lead ++ (m ++ run' ++ rest) ++ trail) := by
  have hne : m ≠ [] := by
    rintro rfl
    obtain ⟨⟨g, gs, hg, -⟩, -⟩ := hrun.trim_eq_self_iff.mp htrim
    cases hg
  have htrim' := hrun'.trim_eq_self_iff.mpr (hrun.trim_eq_self_iff.mp htrim)
  have hkind' := hkind
  rw [hrun.kind hne, ← hrun'.kind hne rest] at hkind'
  intro i
  simp only [Line.item?, Line.ofRaw, LineKind.classify, Text.trim_surround hlead htrail, htrim,
    htrim', hkind, hkind', Statement.ofText_gap hm hrun, Statement.ofText_gap hm hrun']

def pushDown (k : Nat) (n : Int) : Int := if n ≤ k then n else n + 1

def pullUp (k : Nat) (n : Int) : Int := if n ≤ k then n else n - 1

/-- A change of layout, and what it does to the numbers of the lines. Every source is the join of
its pieces, so a line may be put in or changed anywhere. -/
inductive Edit : (Int → Int) → Text → Text → Prop where
  | insertComment {pre post : List Text} {comment : Text}
      (hps : ∀ p ∈ pre ++ comment :: post, newline ∉ p)
      (hcomment : LineKind.classify comment = .comment) :
      Edit (pushDown pre.length) (join (pre ++ post)) (join (pre ++ comment :: post))
  | deleteComment {pre post : List Text} {comment : Text}
      (hps : ∀ p ∈ pre ++ comment :: post, newline ∉ p)
      (hcomment : LineKind.classify comment = .comment) :
      Edit (pullUp pre.length) (join (pre ++ comment :: post)) (join (pre ++ post))
  | surround {pre post : List Text} {lead lead' text trail trail' : Text}
      (hps : ∀ p ∈ pre ++ (lead ++ text ++ trail) :: post, newline ∉ p)
      (hlead : lead.IsBlank) (htrail : trail.IsBlank)
      (hlead' : lead'.IsBlank) (htrail' : trail'.IsBlank)
      (hnew : newline ∉ lead' ∧ newline ∉ trail') :
      Edit id (join (pre ++ (lead ++ text ++ trail) :: post))
        (join (pre ++ (lead' ++ text ++ trail') :: post))
  | crlf (src : Text) : Edit id src src.crlf
  | addNewline (src : Text) : Edit id src (src ++ [newline])
  | dropNewline (src : Text) : Edit id (src ++ [newline]) src
  | respace {pre post : List Text} {lead mnemonic run run' rest trail : Text}
      (hps : ∀ p ∈ pre ++ (lead ++ (mnemonic ++ run ++ rest) ++ trail) :: post, newline ∉ p)
      (hlead : lead.IsBlank) (htrail : trail.IsBlank)
      (htrim : (mnemonic ++ run ++ rest).trim = mnemonic ++ run ++ rest)
      (hkind : LineKind.ofTrimmed (mnemonic ++ run ++ rest) = .instruction)
      (hmnemonic : ∀ b ∈ mnemonic, Text.isSpaceOrTab b = false)
      (hrun : run.IsGap) (hrun' : run'.IsGap) :
      Edit id (join (pre ++ (lead ++ (mnemonic ++ run ++ rest) ++ trail) :: post))
        (join (pre ++ (lead ++ (mnemonic ++ run' ++ rest) ++ trail) :: post))

theorem items_with_comment {pre post : List Text} {comment : Text}
    (hps : ∀ p ∈ pre ++ comment :: post, newline ∉ p)
    (hcomment : LineKind.classify comment = .comment) :
    items (join (pre ++ comment :: post)) =
      itemsFrom 0 pre ++ itemsFrom (pre.length + 1) post := by
  rw [items_join hps, itemsFrom_append, itemsFrom, item?_of_comment hcomment, Nat.zero_add]
  rfl

theorem items_without_comment {pre post : List Text} {comment : Text}
    (hps : ∀ p ∈ pre ++ comment :: post, newline ∉ p) :
    items (join (pre ++ post)) = itemsFrom 0 pre ++ itemsFrom pre.length post := by
  rw [items_join, itemsFrom_append, Nat.zero_add]
  intro p hp
  apply hps p
  simp only [List.mem_append, List.mem_cons] at hp ⊢
  tauto

theorem itemsFrom_append_renumber {f : Int → Int} {pre post : List Text} {index index' : Nat}
    (hpre : ∀ n : Int, n ≤ pre.length → f n = n)
    (hpost : ∀ n : Int, index < n → f n = n + (index' - index)) :
    itemsFrom 0 pre ++ itemsFrom index' post =
      (itemsFrom 0 pre ++ itemsFrom index post).map (Item.renumber f) := by
  have hbefore : itemsFrom 0 pre = (itemsFrom 0 pre).map (Item.renumber f) :=
    itemsFrom_renumber fun i hi => hpre _ (by omega)
  have hbehind : itemsFrom index' post = (itemsFrom index post).map (Item.renumber f) := by
    apply itemsFrom_renumber
    intro i hi
    rw [hpost _ (by omega)]
    omega
  rw [List.map_append, ← hbefore, hbehind]

/-- A change of layout keeps the items. -/
theorem Edit.items {f : Int → Int} {src src' : Text} (h : Edit f src src') :
    Source.items src' = (Source.items src).map (Item.renumber f) := by
  cases h with
  | @insertComment pre post comment hps hcomment =>
    rw [items_with_comment hps hcomment, items_without_comment hps]
    apply itemsFrom_append_renumber
    · intro n hn
      rw [pushDown, if_pos hn]
    · intro n hn
      rw [pushDown, if_neg (by omega)]
      omega
  | @deleteComment pre post comment hps hcomment =>
    rw [items_with_comment hps hcomment, items_without_comment hps]
    apply itemsFrom_append_renumber
    · intro n hn
      rw [pullUp, if_pos hn]
    · intro n hn
      rw [pullUp, if_neg (by omega)]
      omega
  | @surround pre post lead lead' text trail trail' hps hlead htrail hlead' htrail' hnew =>
    rw [Item.map_renumber_id]
    apply items_join_of_alike _ hps
    · have htext := hps (lead ++ text ++ trail) (by simp)
      simp only [List.mem_append, not_or] at htext ⊢
      exact ⟨⟨hnew.1, htext.1.2⟩, hnew.2⟩
    · apply alike_of_trim_eq
      rw [Text.trim_surround hlead htrail, Text.trim_surround hlead' htrail']
  | crlf src => rw [Item.map_renumber_id, items_crlf]
  | addNewline src => rw [Item.map_renumber_id, items_append_newline]
  | dropNewline src => rw [Item.map_renumber_id, items_append_newline]
  | @respace pre post lead mnemonic run run' rest trail hps hlead htrail htrim hkind hm hrun
      hrun' =>
    rw [Item.map_renumber_id]
    apply items_join_of_alike (alike_gap hlead htrail htrim hkind hm hrun hrun') hps
    have htext := hps (lead ++ (mnemonic ++ run ++ rest) ++ trail) (by simp)
    have hgap : newline ∉ run' := fun hn => absurd (hrun'.blank _ hn) (by decide)
    simp only [List.mem_append, not_or] at htext ⊢
    exact ⟨⟨htext.1.1, ⟨htext.1.2.1.1, hgap⟩, htext.1.2.2⟩, htext.2⟩

end Source

open Assembly

/-- Layout does not matter: the program, the labels and both traces stay, and so does an error but
for the number of its line. -/
theorem layout_does_not_matter {f : Int → Int} {src src' : Text} (h : Source.Edit f src src')
    (isa : InstructionSet) (resolve : Text → Option Text) :
    (assemble isa resolve src').labels = (assemble isa resolve src).labels ∧
    (assemble isa resolve src').bindings = (assemble isa resolve src).bindings ∧
    (assemble isa resolve src').lookups = (assemble isa resolve src).lookups ∧
    (assemble isa resolve src').outcome =
      (assemble isa resolve src).outcome.mapError (SourceError.renumber f) ∧
    ∀ e i l, FirstError isa resolve src e i l →
      ∃ l', FirstError isa resolve src' (e.renumber f) i l' ∧
        Statement.ofText l'.text = Statement.ofText l.text := by
  have hassemble : assemble isa resolve src' = (assemble isa resolve src).renumber f :=
    assemble_of_items h.items
  refine ⟨by rw [hassemble]; rfl, by rw [hassemble]; rfl, by rw [hassemble]; rfl,
    by rw [hassemble]; rfl, fun e i l hfirst => ?_⟩
  obtain ⟨l', hfirst', hstatement⟩ := hfirst.of_items h.items
  exact ⟨l', hfirst', congrArg Prod.fst hstatement⟩

/-- A line of one stray byte is a comment: it moves the error behind it down by a line. -/
theorem layout_does_not_matter_stray :
    let src : Text := "push 1\npush\t-1\n"
    let src' : Text := Text.utf8 "push 1\n" ++ 0xFF :: Text.utf8 "\npush\t-1\n"
    Source.Edit (Source.pushDown 1) src src' ∧
      (assemble .standard (fun _ => none) src).outcome = .error ⟨2, .negativePush (-1)⟩ ∧
      (assemble .standard (fun _ => none) src').outcome = .error ⟨3, .negativePush (-1)⟩ := by
  intro src src'
  have hedit : Source.Edit (Source.pushDown [Text.utf8 "push 1"].length)
      (Source.join ([Text.utf8 "push 1"] ++ [Text.utf8 "push\t-1", []]))
      (Source.join ([Text.utf8 "push 1"] ++ [0xFF] :: [Text.utf8 "push\t-1", []])) :=
    .insertComment (by decide) (by decide)
  have herror : (assemble .standard (fun _ => none) src).outcome =
      .error ⟨2, .negativePush (-1)⟩ := by
    decide +kernel
  have hsame := (layout_does_not_matter hedit .standard fun _ => none).2.2.2.1
  exact ⟨hedit, herror, hsame.trans (congrArg _ herror)⟩

end B100
