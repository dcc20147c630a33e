import B100.Proofs.Instruction.Packing

/-! # The standard instruction set

The standard set is well formed, and the words of its instructions are those in `Word.Valid`.
-/

namespace B100

theorem Codes.of_getElem? {codes : Codes} {P : Text × Word → Prop} (hP : ∀ x ∈ codes.toList, P x)
    {m : Text} {code : Word} (h : codes[m]? = some code) : P (m, code) :=
  hP _ (Std.ExtTreeMap.mem_toList_iff_getElem?_eq_some.mpr h)

theorem InstructionSet.standard_wellFormed : standard.WellFormed where
  push := rfl
  tag c hc := by
    cases c with
    | push => exact absurd rfl hc
    | copy => exact ⟨0x1000, rfl, by decide⟩
    | jump => exact ⟨0x2000, rfl, by decide⟩
    | alu => exact ⟨0x3000, rfl, by decide⟩
    | io => exact ⟨0x4000, rfl, by decide⟩
    | sys => exact ⟨0x5000, rfl, by decide⟩
  distinct c _ d _ h := by
    cases c <;> cases d <;> first | rfl | exact absurd h (by decide)
  alu _ _ h := Codes.of_getElem? (P := (·.2 < 0x1000)) (by decide) h
  jump _ _ h := Codes.of_getElem? (P := (·.2 < 0x1000)) (by decide) h
  io _ _ h := Codes.of_getElem? (P := (Word.Within ·.2 0x080F)) (by decide) h
  sysFlag := by decide

inductive Word.Valid : Word → Prop
  | push {w : Word} (h : 0x8000 ≤ w) : Valid w
  | copy {s d : Word} (hs : s ≤ 15) (hd : d ≤ 15) : Valid ((0x1000 : Word) ||| s <<< 8 ||| d <<< 4)
  | jump {w : Word} (h : 0x2001 ≤ w ∧ w ≤ 0x2007) : Valid w
  | operation {w : Word} (h : 0x3000 ≤ w ∧ w ≤ 0x300D) : Valid w
  | transfer {p r f : Word} (hp : p ≤ 7) (hr : r ≤ 15) (hf : f ≤ 1) :
    Valid ((0x4000 : Word) ||| p <<< 8 ||| r <<< 4 ||| f)
  | execute {p : Word} (hp : p ≤ 7) : Valid ((0x4800 : Word) ||| p <<< 8)
  | system {i : Word} (hi : i ≤ 255) : Valid (0x5100 ||| i)

namespace InstructionSet

theorem ofInt_le {n : Int} {m : Nat} (h : 0 ≤ n ∧ n ≤ m) (hm : m < 0x10000) :
    Word.ofInt n ≤ UInt16.ofNat m := by
  have hn := Word.toNat_ofInt h.1 (by omega)
  rw [UInt16.le_iff_toNat_le, UInt16.toNat_ofNat_of_lt' hm]
  omega

theorem valid_pack {i : Instruction} (hi : standard.Admits i) : (standard.pack i).Valid := by
  cases i with
  | push n =>
    obtain ⟨h₀, h₁⟩ := hi
    have hn := Word.toNat_ofInt h₀ (by omega)
    have hw := Word.toNat_or_of_lt (w := Word.ofInt n) (by omega)
    apply Word.Valid.push
    rw [UInt16.le_iff_toNat_le]
    exact Nat.le_trans (Nat.le_add_right _ _) (Nat.le_of_eq hw.symm)
  | copy s d =>
    rw [pack_copy]
    exact .copy (ofInt_le (m := 15) hi.1 (by decide)) (ofInt_le (m := 15) hi.2 (by decide))
  | jump code =>
    obtain ⟨m, hm⟩ := hi
    exact .jump (Codes.of_getElem? (P := fun x => 0x2001 ≤ 0x2000 ||| x.2 ∧ 0x2000 ||| x.2 ≤ 0x2007)
      (by decide) hm)
  | operation code =>
    obtain ⟨m, hm⟩ := hi
    exact .operation (Codes.of_getElem?
      (P := fun x => 0x3000 ≤ 0x3000 ||| x.2 ∧ 0x3000 ||| x.2 ≤ 0x300D) (by decide) hm)
  | peripheral n r code =>
    obtain ⟨hn, hr, m, hm, hex⟩ := hi
    have hp := ofInt_le (m := 7) hn (by decide)
    have hcode : (m = "ioex" ∧ code = 0x0800) ∨ code ≤ 1 :=
      Codes.of_getElem? (P := fun x => (x.1 = "ioex" ∧ x.2 = 0x0800) ∨ x.2 ≤ 1) (by decide) hm
    rcases hcode with ⟨rfl, rfl⟩ | hf
    · obtain rfl := hex rfl
      rw [pack_execute, UInt16.or_assoc, UInt16.or_comm (_ <<< _), ← UInt16.or_assoc]
      exact .execute hp
    · rw [pack_peripheral]
      exact .transfer hp (ofInt_le (m := 15) hr (by decide)) hf
  | system flag n =>
    obtain ⟨rfl, hn⟩ := hi
    rw [pack_system]
    exact .system (ofInt_le (m := 255) hn (by decide))

theorem ofInt_toNat (w : Word) : Word.ofInt w.toNat = w := by
  have hlt := w.toNat_lt
  have hn := Word.toNat_ofInt (n := w.toNat) (by omega) (by omega)
  exact UInt16.toNat_inj.mp (by omega)

theorem exists_code (codes : Codes) (tag : Word) (first count : Nat)
    (h : ∀ n < count, ∃ x ∈ codes.toList, tag ||| x.2 = UInt16.ofNat (first + n)) {w : Word}
    (hw : first ≤ w.toNat ∧ w.toNat < first + count) :
    ∃ code, (∃ m : Text, codes[m]? = some code) ∧ tag ||| code = w := by
  obtain ⟨⟨m, code⟩, hx, he⟩ := h (w.toNat - first) (by omega)
  rw [Nat.add_sub_of_le hw.1, UInt16.ofNat_toNat] at he
  exact ⟨code, ⟨m, Std.ExtTreeMap.mem_toList_iff_getElem?_eq_some.mp hx⟩, he⟩

theorem exists_pack_of_valid {w : Word} (hw : w.Valid) :
    ∃ i, standard.Admits i ∧ standard.pack i = w := by
  cases hw with
  | push h =>
    have hlt := w.toNat_lt
    have hle : 0x8000 ≤ w.toNat := UInt16.le_iff_toNat_le.mp h
    have hn := Word.toNat_ofInt (n := (w.toNat - 0x8000 : Nat)) (by omega) (by omega)
    have hw := Word.toNat_or_of_lt (w := Word.ofInt (w.toNat - 0x8000 : Nat)) (by omega)
    refine ⟨.push (w.toNat - 0x8000 : Nat), ⟨by omega, by omega⟩, UInt16.toNat_inj.mp ?_⟩
    exact hw.trans (by omega)
  | @copy s d hs hd =>
    have hs : s.toNat ≤ 15 := UInt16.le_iff_toNat_le.mp hs
    have hd : d.toNat ≤ 15 := UInt16.le_iff_toNat_le.mp hd
    refine ⟨.copy s.toNat d.toNat, ⟨⟨by omega, by omega⟩, by omega, by omega⟩, ?_⟩
    rw [pack_copy, ofInt_toNat, ofInt_toNat]
    rfl
  | jump h =>
    have hle : 0x2001 ≤ w.toNat := UInt16.le_iff_toNat_le.mp h.1
    have hge : w.toNat ≤ 0x2007 := UInt16.le_iff_toNat_le.mp h.2
    obtain ⟨code, hm, rfl⟩ := exists_code standard.jump 0x2000 0x2001 7 (by decide)
      ⟨hle, by omega⟩
    exact ⟨.jump code, hm, rfl⟩
  | operation h =>
    have hle : 0x3000 ≤ w.toNat := UInt16.le_iff_toNat_le.mp h.1
    have hge : w.toNat ≤ 0x300D := UInt16.le_iff_toNat_le.mp h.2
    obtain ⟨code, hm, rfl⟩ := exists_code standard.alu 0x3000 0x3000 14 (by decide)
      ⟨hle, by omega⟩
    exact ⟨.operation code, hm, rfl⟩
  | @transfer p r f hp hr hf =>
    have hp : p.toNat ≤ 7 := UInt16.le_iff_toNat_le.mp hp
    have hr : r.toNat ≤ 15 := UInt16.le_iff_toNat_le.mp hr
    have hf : f.toNat ≤ 1 := UInt16.le_iff_toNat_le.mp hf
    obtain ⟨m, hm, hne⟩ : ∃ m : Text, standard.io[m]? = some f ∧ m ≠ "ioex" := by
      have hall : ∀ n < 2, ∃ x ∈ standard.io.toList, x.2 = UInt16.ofNat n ∧ x.1 ≠ "ioex" := by
        decide
      obtain ⟨⟨m, code⟩, hx, rfl, hne⟩ := hall f.toNat (by omega)
      rw [UInt16.ofNat_toNat] at hx
      exact ⟨m, Std.ExtTreeMap.mem_toList_iff_getElem?_eq_some.mp hx, hne⟩
    refine ⟨.peripheral p.toNat r.toNat f, ⟨⟨by omega, by omega⟩, ⟨by omega, by omega⟩, m, hm,
      fun h => absurd h hne⟩, ?_⟩
    rw [pack_peripheral, ofInt_toNat, ofInt_toNat]
    rfl
  | @execute p hp =>
    have hp : p.toNat ≤ 7 := UInt16.le_iff_toNat_le.mp hp
    refine ⟨.peripheral p.toNat 0 0x0800, ⟨⟨by omega, by omega⟩, by decide, "ioex", by decide,
      fun _ => rfl⟩, ?_⟩
    rw [pack_execute, ofInt_toNat, UInt16.or_assoc, UInt16.or_comm (_ <<< _), ← UInt16.or_assoc]
    rfl
  | @system i hi =>
    have hi : i.toNat ≤ 255 := UInt16.le_iff_toNat_le.mp hi
    refine ⟨.system standard.sysFlag i.toNat, ⟨rfl, by omega, by omega⟩, ?_⟩
    rw [pack_system, ofInt_toNat]
    rfl

theorem valid_iff {w : Word} : w.Valid ↔ ∃ i, standard.Admits i ∧ standard.pack i = w := by
  constructor
  · exact exists_pack_of_valid
  · rintro ⟨i, hi, rfl⟩
    exact valid_pack hi

end InstructionSet

end B100
