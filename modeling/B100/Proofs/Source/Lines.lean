import B100.Proofs.Text.Trimming
import B100.Source.Line
import Mathlib.Data.List.Basic

/-! # Lines of a source

A source is its pieces with line feeds between them. Its lines are these pieces, less an empty one
at the end, and the number of a line counts the line feeds before it.
-/

namespace B100

namespace Source

def newline : UInt8 := '\n'.toUInt8

/-- The texts between line feeds. Unlike a line, a piece may stand after the last line feed of the
source and be empty. -/
def pieces (src : Text) : List Text := src.splitOn newline

def join (ps : List Text) : Text := [newline].intercalate ps

theorem join_pieces (src : Text) : join (pieces src) = src := List.intercalate_splitOn newline

theorem pieces_ne_nil (src : Text) : pieces src ≠ [] := List.splitOn_ne_nil newline src

theorem pieces_join {ps : List Text} (hne : ps ≠ []) (h : ∀ p ∈ ps, newline ∉ p) :
    pieces (join ps) = ps :=
  List.splitOn_intercalate newline h hne

theorem pieces_cons (b : UInt8) (src : Text) : pieces (b :: src) =
    if b = newline then [] :: pieces src else (pieces src).modifyHead (b :: ·) := by
  simp only [pieces, List.splitOn_cons_eq_if_modifyHead, beq_iff_eq]

theorem newline_notMem_of_mem_pieces {src p : Text} (h : p ∈ pieces src) : newline ∉ p := by
  induction src generalizing p with
  | nil =>
    obtain rfl : p = [] := by simpa [pieces] using h
    exact List.not_mem_nil
  | cons b src ih =>
    rw [pieces_cons] at h
    split at h
    · rcases List.mem_cons.mp h with rfl | h
      · exact List.not_mem_nil
      · exact ih h
    · next hb =>
      obtain ⟨q, qs, hq⟩ := List.exists_cons_of_ne_nil (pieces_ne_nil src)
      rw [hq, List.modifyHead_cons] at h
      rcases List.mem_cons.mp h with rfl | h
      · rw [List.mem_cons, not_or]
        exact ⟨Ne.symm hb, ih (hq ▸ List.mem_cons_self)⟩
      · exact ih (hq ▸ List.mem_cons_of_mem q h)

theorem pieces_append_newline (a b : Text) : pieces (a ++ newline :: b) = pieces a ++ pieces b :=
  List.splitOn_append_cons_self a b

def dropFinalEmpty (ps : List Text) : List Text :=
  if ps.getLast? == some [] then ps.dropLast else ps

theorem rawLines_eq (src : Text) : rawLines src = dropFinalEmpty (pieces src) := rfl

theorem dropFinalEmpty_append (ps : List Text) {qs : List Text} (h : qs ≠ []) :
    dropFinalEmpty (ps ++ qs) = ps ++ dropFinalEmpty qs := by
  rw [dropFinalEmpty, dropFinalEmpty, List.getLast?_append_of_ne_nil _ h,
    List.dropLast_append_of_ne_nil h]
  split <;> rfl

theorem dropFinalEmpty_prefix (ps : List Text) : dropFinalEmpty ps <+: ps := by
  unfold dropFinalEmpty
  split
  · exact List.dropLast_prefix ps
  · exact List.prefix_rfl

/-- A line of a source, as it stands between what is before it and what is after it. -/
structure LineAt (src before raw after : Text) : Prop where
  split : src = before ++ raw ++ after
  begins : before = [] ∨ before.getLast? = some newline
  ends : after = [] ∨ after.head? = some newline
  whole : newline ∉ raw

theorem join_append_cons (pre : List Text) (raw : Text) (post : List Text) :
    join (pre ++ raw :: post) =
      pre.flatMap (· ++ [newline]) ++ raw ++ post.flatMap (newline :: ·) := by
  induction pre with
  | nil =>
    induction post generalizing raw with
    | nil => simp [join]
    | cons p post ih => simp_all [join, List.intercalate_cons_cons]
  | cons p pre ih =>
    obtain ⟨q, qs, hq⟩ := List.exists_cons_of_ne_nil
      (show pre ++ raw :: post ≠ [] by simp)
    rw [join, hq] at ih
    rw [join, List.cons_append, hq, List.intercalate_cons_cons, ih]
    simp

theorem exists_lineAt {src raw : Text} {i : Nat} (h : (pieces src)[i]? = some raw) :
    ∃ before after, LineAt src before raw after ∧ before.count newline = i := by
  obtain ⟨hi, hraw⟩ := List.getElem?_eq_some_iff.mp h
  have hpieces : pieces src = (pieces src).take i ++ raw :: (pieces src).drop (i + 1) := by
    rw [← hraw, ← List.drop_eq_getElem_cons hi, List.take_append_drop]
  have hcount : ∀ p ∈ (pieces src).take i, (p ++ [newline]).count newline = 1 := by
    intro p hp
    rw [List.count_append, List.count_singleton_self,
      List.count_eq_zero_of_not_mem (newline_notMem_of_mem_pieces (List.mem_of_mem_take hp))]
  refine ⟨((pieces src).take i).flatMap (· ++ [newline]),
    ((pieces src).drop (i + 1)).flatMap (newline :: ·), ⟨?_, ?_, ?_, ?_⟩, ?_⟩
  · rw [← join_append_cons, ← hpieces, join_pieces]
  · rcases List.eq_nil_or_concat ((pieces src).take i) with hnil | ⟨ps, p, hps⟩
    · exact .inl (by rw [hnil]; rfl)
    · exact .inr (by simp [hps])
  · cases (pieces src).drop (i + 1) with
    | nil => exact .inl rfl
    | cons p ps => exact .inr rfl
  · exact newline_notMem_of_mem_pieces (List.mem_of_getElem? h)
  · rw [List.count_flatMap, List.map_congr_left (g := fun _ => 1) (by simpa using hcount)]
    simp
    omega

theorem exists_lineAt_of_mem_lines {src : Text} {l : Line} (h : l ∈ lines src) :
    ∃ before raw after, LineAt src before raw after ∧
      l = Line.ofRaw raw (before.count newline) := by
  obtain ⟨⟨raw, i⟩, hm, rfl⟩ := List.mem_map.mp h
  have hi : (rawLines src)[i]? = some raw := List.mk_mem_zipIdx_iff_getElem?.mp hm
  have hp : (pieces src)[i]? = some raw := by
    obtain ⟨rest, hrest⟩ := dropFinalEmpty_prefix (pieces src)
    rw [← rawLines_eq] at hrest
    rw [← hrest, List.getElem?_append_left (List.getElem?_eq_some_iff.mp hi).1, hi]
  obtain ⟨before, after, hat, rfl⟩ := exists_lineAt hp
  exact ⟨before, raw, after, hat, rfl⟩

end Source

def Line.shift (k : Nat) (l : Line) : Line := { l with number := l.number + k }

namespace Source

theorem map_ofRaw_zipIdx (raws : List Text) (k : Nat) :
    (raws.zipIdx k).map (fun (raw, i) => Line.ofRaw raw i) =
      (raws.zipIdx.map fun (raw, i) => Line.ofRaw raw i).map (Line.shift k) := by
  rw [List.zipIdx_eq_map_add, List.map_map, List.map_map]
  apply List.map_congr_left
  rintro ⟨raw, i⟩ -
  simp only [Function.comp_apply, Line.ofRaw, Line.shift, Line.mk.injEq, true_and, and_true]
  omega

/-- A source that is empty or ends in a line feed keeps its lines when another follows, and the
lines of the other move on. -/
theorem lines_append {a : Text} (ha : a = [] ∨ a.getLast? = some newline) (b : Text) :
    lines (a ++ b) = lines a ++ (lines b).map (Line.shift (lines a).length) := by
  have hraw : rawLines (a ++ b) = rawLines a ++ rawLines b := by
    rcases ha with rfl | ha
    · rfl
    · obtain ⟨a, rfl⟩ := List.getLast?_eq_some_iff.mp ha
      have hfinal : dropFinalEmpty (pieces []) = [] := rfl
      simp only [rawLines_eq, List.append_assoc, List.singleton_append, pieces_append_newline,
        dropFinalEmpty_append _ (pieces_ne_nil _), hfinal, List.append_nil]
  have hlen : (lines a).length = (rawLines a).length := by
    simp [lines]
  rw [lines, hraw, List.zipIdx_append, List.map_append, map_ofRaw_zipIdx (rawLines b),
    Nat.zero_add, hlen]
  rfl

end Source

end B100
