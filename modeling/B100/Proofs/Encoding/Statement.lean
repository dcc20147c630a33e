import B100.Encoding.Statement
import B100.Proofs.Text.LowerCase

/-! # Reading statements

A line with a gap in it is a mnemonic and its operands, and the mnemonic decides what they are
operands of.
-/

namespace B100

open Text

namespace Statement

theorem ofText_gap {m run : Text} (hm : ∀ b ∈ m, isSpaceOrTab b = false) (hrun : run.IsGap)
    (rest : Text) :
    ofText (m ++ run ++ rest) = withOperands m (rest.dropWhile isSpaceOrTab) := by
  obtain ⟨b, run, rfl⟩ := List.exists_cons_of_ne_nil hrun.nonempty
  have hcut : Text.cut (m ++ b :: run ++ rest) isSpaceOrTab = (m, some (run ++ rest)) := by
    rw [List.append_assoc, List.cons_append]
    exact cut_append_cons hm (hrun.blank b List.mem_cons_self) _
  simp only [ofText, hcut]
  rw [List.dropWhile_append_of_pos fun c hc => hrun.blank c (List.mem_cons_of_mem b hc)]

theorem ofText_space {m : Text} (hm : m.Visible) (rest : Text) :
    ofText (m ++ ' '.toUInt8 :: rest) = withOperands m (rest.dropWhile isSpaceOrTab) := by
  have hgap : IsGap [' '.toUInt8] := ⟨List.cons_ne_nil _ _, List.forall_mem_singleton.mpr rfl⟩
  simpa using ofText_gap hm.not_isSpaceOrTab hgap rest

theorem exists_gap_of_cut {text m rest : Text} (h : text.cut isSpaceOrTab = (m, some rest)) :
    ∃ run, text = m ++ run ++ rest.dropWhile isSpaceOrTab ∧ (∀ b ∈ m, isSpaceOrTab b = false) ∧
      run.IsGap := by
  obtain ⟨b, rfl, hb, hm⟩ := exists_of_cut_eq_some h
  refine ⟨b :: rest.takeWhile isSpaceOrTab, ?_, hm, List.cons_ne_nil _ _, ?_⟩
  · rw [List.append_assoc, List.cons_append, List.takeWhile_append_dropWhile]
  · rintro c (_ | ⟨_, hc⟩)
    · exact hb
    · exact List.mem_takeWhile_imp hc

theorem io_not_isPrefixOf {m name : Text} (hm : m.lower = name) (hname : ¬ ("io" : Text) <+: name) :
    ¬ ("io" : Text).isPrefixOf m = true := by
  intro h
  obtain ⟨t, rfl⟩ := List.isPrefixOf_iff_prefix.mp h
  have hvisible : Visible "io" := by decide
  have hio : ("io" : Text).lower = "io" := by decide
  rw [lower_append_ascii hvisible.ascii, hio] at hm
  exact hname ⟨_, hm⟩

variable (operands : Text)

theorem withOperands_of_lower_push {m : Text} (hm : m.lower = "push") :
    withOperands m operands = .push operands := by
  rw [withOperands, if_neg (io_not_isPrefixOf hm (by decide)), hm, if_pos rfl]

theorem withOperands_of_lower_copy {m : Text} (hm : m.lower = "copy") :
    withOperands m operands = .copy operands := by
  rw [withOperands, if_neg (io_not_isPrefixOf hm (by decide)), hm, if_neg (by decide), if_pos rfl]

theorem withOperands_of_lower_sys {m : Text} (hm : m.lower = "sys") :
    withOperands m operands = .system operands := by
  rw [withOperands, if_neg (io_not_isPrefixOf hm (by decide)), hm, if_neg (by decide),
    if_neg (by decide), if_pos rfl]

theorem withOperands_push : withOperands "push" operands = .push operands :=
  withOperands_of_lower_push operands (by decide)

theorem withOperands_copy : withOperands "copy" operands = .copy operands :=
  withOperands_of_lower_copy operands (by decide)

theorem withOperands_sys : withOperands "sys" operands = .system operands :=
  withOperands_of_lower_sys operands (by decide)

theorem withOperands_io {m : Text} (h : ("io" : Text).isPrefixOf m = true) :
    withOperands m operands = .peripheral m operands := by
  rw [withOperands, if_pos h]

end Statement

end B100
