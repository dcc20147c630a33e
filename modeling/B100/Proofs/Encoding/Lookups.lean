import B100.Proofs.Encoding.Running

/-! # Questions to the settings

What encoders ask of the settings. An encoder sees nothing of the settings but the answers to its
questions, asks at most once for each place where a setting can stand, and goes no further after a
question that has no answer.
-/

namespace B100

variable {α β : Type}

namespace Inquiry

/-- A resolver that gives the same answers to the questions that were asked is never told apart. -/
theorem run_congr {r s : Text → Option Text} {x : Inquiry α}
    (h : ∀ q ∈ (x.run r).1, s q.key = r q.key) : x.run s = x.run r := by
  induction x with
  | done a => rfl
  | ask key next ih =>
    have hkey : s key = r key := h ⟨key, r key⟩ List.mem_cons_self
    have hnext := ih (r key) fun q hq => h q (List.mem_cons_of_mem _ hq)
    simp only [run, hkey, hnext]

theorem value_of_mem_run {r : Text → Option Text} {x : Inquiry α} {q : Lookup}
    (h : q ∈ (x.run r).1) : q.value = r q.key := by
  induction x with
  | done a => cases h
  | ask key next ih =>
    rcases List.mem_cons.mp h with rfl | h
    · rfl
    · exact ih (r key) h

end Inquiry

/-- What is wrong with an answer that is not the text of a number. -/
def Lookup.fault? (q : Lookup) : Option Fault :=
  match q.value with
  | none => some (.unknownSetting q.key)
  | some value =>
    match Literal.short value.trim with
    | .ok _ => none
    | .error e => some (.unreadableSetting q.key e)

namespace Lookup

variable {q : Lookup} {f : Fault}

theorem kind_of_fault? (h : q.fault? = some f) : f.kind = .invalidOperand := by
  unfold fault? at h
  split at h
  · cases h
    rfl
  · split at h
    · cases h
    · cases h
      rfl

theorem fault?_of_miss (h : q.value = none) : q.fault? = some (.unknownSetting q.key) := by
  rw [fault?, h]

theorem value_ne_none (h : q.fault? = none) : q.value ≠ none := by
  intro hmiss
  cases (fault?_of_miss hmiss).symm.trans h

end Lookup

/-- Lookups with what came of them. Every answer was a number and none is to blame, or only the last
was not and is the fault. -/
def EndsAtMiss (lookups : List Lookup) (result : Except Fault α) : Prop :=
  ((∀ q ∈ lookups, q.fault? = none) ∧ ∀ f, result = .error f → f.kind ≠ .invalidOperand) ∨
    ∃ found q f, lookups = found ++ [q] ∧ (∀ q ∈ found, q.fault? = none) ∧ q.fault? = some f ∧
      result = .error f

namespace EndsAtMiss

variable {lookups later : List Lookup} {result : Except Fault α} {result' : Except Fault β}

theorem numbers_of_ok {a : α} (h : EndsAtMiss lookups (.ok a)) :
    ∀ q ∈ lookups, q.fault? = none := by
  rcases h with h | ⟨found, q, f, -, -, -, h⟩
  · exact h.1
  · cases h

theorem imp (h : EndsAtMiss lookups result) (hf : ∀ f, result = .error f ↔ result' = .error f) :
    EndsAtMiss lookups result' := by
  rcases h with ⟨h, hkind⟩ | ⟨found, q, f, hl, hfound, hq, hr⟩
  · exact .inl ⟨h, fun f hr => hkind f ((hf f).mpr hr)⟩
  · exact .inr ⟨found, q, f, hl, hfound, hq, (hf f).mp hr⟩

theorem append (hnumbers : ∀ q ∈ lookups, q.fault? = none) (h : EndsAtMiss later result) :
    EndsAtMiss (lookups ++ later) result := by
  rcases h with ⟨h, hkind⟩ | ⟨found, q, f, rfl, hlater, hq, hr⟩
  · exact .inl ⟨List.forall_mem_append.mpr ⟨hnumbers, h⟩, hkind⟩
  · exact .inr ⟨lookups ++ found, q, f, (List.append_assoc ..).symm,
      List.forall_mem_append.mpr ⟨hnumbers, hlater⟩, hq, hr⟩

theorem last_of_fault? (h : EndsAtMiss lookups result) {i : Nat} {q : Lookup} {f : Fault}
    (hq : lookups[i]? = some q) (hfault : q.fault? = some f) :
    i + 1 = lookups.length ∧ result = .error f := by
  rcases h with ⟨h, -⟩ | ⟨found, p, g, rfl, hfound, hp, hr⟩
  · cases (h q (List.mem_of_getElem? hq)).symm.trans hfault
  · rcases Nat.lt_trichotomy i found.length with hlt | rfl | hgt
    · rw [List.getElem?_append_left hlt] at hq
      cases (hfound q (List.mem_of_getElem? hq)).symm.trans hfault
    · rw [List.getElem?_concat_length] at hq
      obtain rfl := Option.some.inj hq
      obtain rfl := Option.some.inj (hp.symm.trans hfault)
      exact ⟨by simp, hr⟩
    · rw [List.getElem?_eq_none (by simp; omega)] at hq
      cases hq

theorem last_of_miss (h : EndsAtMiss lookups result) {i : Nat} {q : Lookup}
    (hq : lookups[i]? = some q) (hmiss : q.value = none) :
    i + 1 = lookups.length ∧ result = .error (.unknownSetting q.key) :=
  h.last_of_fault? hq (Lookup.fault?_of_miss hmiss)

/-- The last answer shows whether an answer is to blame. -/
theorem kind_eq_invalidOperand_iff {f : Fault}
    (h : EndsAtMiss lookups (.error f : Except Fault α)) :
    f.kind = .invalidOperand ↔ ∃ q, lookups.getLast? = some q ∧ q.fault? ≠ none := by
  rcases h with ⟨h, hkind⟩ | ⟨found, q, g, rfl, hfound, hq, hr⟩
  · constructor
    · exact fun hf => absurd hf (hkind f rfl)
    · rintro ⟨q, hlast, hq⟩
      exact absurd (h q (List.mem_of_getLast? hlast)) hq
  · obtain rfl := Except.error.inj hr
    constructor
    · exact fun _ => ⟨q, List.getLast?_concat .., by simp [hq]⟩
    · exact fun _ => Lookup.kind_of_fault? hq

end EndsAtMiss

namespace Encoder

variable (resolve : Text → Option Text)

def lookups (x : Encoder α) : List Lookup := (x.run.run resolve).1

@[simp] theorem lookups_pure (a : α) : lookups resolve (pure a) = [] := rfl

@[simp] theorem lookups_throw (f : Fault) : lookups resolve (throw f : Encoder α) = [] := rfl

variable {resolve} {x : Encoder α} {f : α → Encoder β}

theorem lookups_bind_of_ok {a : α} (h : result resolve x = .ok a) :
    lookups resolve (x >>= f) = lookups resolve x ++ lookups resolve (f a) := by
  have hr : (x.run.run resolve).2 = .ok a := h
  simp only [lookups, ExceptT.run_bind, Inquiry.run_bind, hr]

theorem lookups_bind_of_error {e : Fault} (h : result resolve x = .error e) :
    lookups resolve (x >>= f) = lookups resolve x := by
  have hr : (x.run.run resolve).2 = .error e := h
  simp only [lookups, ExceptT.run_bind, Inquiry.run_bind, hr]
  exact List.append_nil _

theorem lookups_bind_of_silent (h : ∀ a, lookups resolve (f a) = []) :
    lookups resolve (x >>= f) = lookups resolve x := by
  cases hx : result resolve x with
  | error e => exact lookups_bind_of_error hx
  | ok a => rw [lookups_bind_of_ok hx, h, List.append_nil]

/-- An encoder that asks at most `n` questions, and none after one whose answer is not a number. -/
structure Asks (n : Nat) (x : Encoder α) : Prop where
  length_le : ∀ resolve, (lookups resolve x).length ≤ n
  endsAtMiss : ∀ resolve, EndsAtMiss (lookups resolve x) (result resolve x)

variable {m n : Nat}

theorem asks_pure (a : α) : Asks n (pure a) where
  length_le _ := Nat.zero_le n
  endsAtMiss _ := .inl ⟨nofun, nofun⟩

theorem asks_throw {e : Fault} (he : (e.kind == .invalidOperand) = false) :
    Asks n (throw e : Encoder α) where
  length_le _ := Nat.zero_le n
  endsAtMiss _ := .inl ⟨nofun, fun _ hf => Except.error.inj hf ▸ ne_of_beq_false he⟩

theorem Asks.bind (hx : Asks m x) (hf : ∀ a, Asks n (f a)) : Asks (m + n) (x >>= f) where
  length_le resolve := by
    have hm := hx.length_le resolve
    cases h : result resolve x with
    | error e =>
      rw [lookups_bind_of_error h]
      omega
    | ok a =>
      have hn := (hf a).length_le resolve
      rw [lookups_bind_of_ok h, List.length_append]
      omega
  endsAtMiss resolve := by
    have hmiss := hx.endsAtMiss resolve
    rw [result_bind]
    cases h : result resolve x with
    | error e =>
      rw [h] at hmiss
      rw [lookups_bind_of_error h]
      exact hmiss.imp fun f => by simp [Except.bind]
    | ok a =>
      rw [h] at hmiss
      rw [lookups_bind_of_ok h]
      exact ((hf a).endsAtMiss resolve).append hmiss.numbers_of_ok

theorem Asks.bind_last (hx : Asks n x) (hf : ∀ a, Asks 0 (f a)) : Asks n (x >>= f) := hx.bind hf

theorem Asks.ite {c : Prop} [Decidable c] {y : Encoder α} (hx : Asks n x) (hy : Asks n y) :
    Asks n (if c then x else y) := by
  split
  · exact hx
  · exact hy

theorem Asks.guard {c : Prop} [Decidable c] {e : Fault} {y : Encoder β}
    (he : (e.kind == .invalidOperand) = false) (hy : Asks n y) :
    Asks n (if c then throw e >>= f else y) :=
  .ite (asks_throw he) hy

end Encoder

open Encoder

namespace Operand

theorem lookups_setting (resolve : Text → Option Text) (key : Text) :
    lookups resolve (setting key) = [⟨key, resolve key⟩] := by
  have hvalue : result resolve (liftM (Inquiry.value key)) = .ok (resolve key) := rfl
  have hasked : lookups resolve (liftM (Inquiry.value key)) = [⟨key, resolve key⟩] := rfl
  rw [setting, lookups_bind_of_ok hvalue, hasked]
  cases resolve key with
  | none => rfl
  | some value => cases h : Literal.short value.trim <;> simp [h]

theorem asks_setting (key : Text) : Asks 1 (setting key) where
  length_le resolve := by
    rw [lookups_setting]
    exact Nat.le_refl 1
  endsAtMiss resolve := by
    rw [lookups_setting, result_setting]
    cases hvalue : resolve key with
    | none => exact .inr ⟨[], _, _, rfl, nofun, rfl, rfl⟩
    | some value =>
      dsimp only
      cases hn : Literal.short value.trim with
      | ok n => exact .inl ⟨by simp [Lookup.fault?, hn], fun f hf => by cases hf⟩
      | error e =>
        exact .inr ⟨[], _, .unreadableSetting key e, rfl, nofun, by simp [Lookup.fault?, hn], rfl⟩

theorem asks_short (token : Text) : Asks 1 (short token) := by
  unfold short
  split
  · exact asks_pure _
  · exact asks_setting token

theorem asks_index (token : Text) : Asks 1 (index token) := by
  unfold index
  split
  · exact asks_pure _
  · exact asks_setting token

end Operand

def Statement.slots : Statement → Nat
  | push _ | system _ => 1
  | peripheral mnemonic _ => if mnemonic = "ioex" then 1 else 2
  | copy _ | jump _ | operation _ | unknown _ => 0

namespace Encoding

variable (e : Encoding)

theorem asks_labelAddress {n : Nat} (name : Text) : Asks n (e.labelAddress name) := by
  unfold labelAddress
  split
  · exact asks_throw rfl
  · exact .ite (asks_throw rfl) (asks_pure _)

theorem asks_pushValue (operand : Text) : Asks 1 (e.pushValue operand) := by
  unfold pushValue
  split
  · exact .ite (asks_throw rfl) (asks_pure _)
  · split
    · exact e.asks_labelAddress _
    · exact (Operand.asks_setting operand).bind_last fun n => .ite (asks_throw rfl) (asks_pure n)

theorem asks_push (operand : Text) : Asks 1 (e.push operand) :=
  .guard rfl ((e.asks_pushValue _).bind_last fun _ => asks_pure _)

theorem asks_copy (operands : Text) : Asks 0 (e.copy operands) := by
  unfold copy
  split
  · exact asks_throw rfl
  · exact .guard rfl (.guard rfl (asks_pure _))

theorem asks_jump (mnemonic : Text) : Asks 0 (e.jump mnemonic) := by
  unfold jump
  split
  · exact asks_pure _
  · exact asks_throw rfl

theorem asks_operation (mnemonic : Text) : Asks 0 (e.operation mnemonic) := by
  unfold operation
  split
  · exact asks_pure _
  · exact asks_throw rfl

/-- The register is asked for only after the peripheral was found and is in range. -/
theorem asks_peripheral (mnemonic operands : Text) :
    Asks (if mnemonic = "ioex" then 1 else 2) (e.peripheral mnemonic operands) := by
  unfold peripheral
  cases e.isa.io[mnemonic]? with
  | none => exact asks_throw rfl
  | some code =>
    by_cases hm : mnemonic = "ioex"
    · simp only [if_pos hm]
      exact (Operand.asks_index _).bind_last fun n =>
        .guard rfl (.ite (asks_pure _) (asks_throw rfl))
    · simp only [if_neg hm]
      refine (Operand.asks_index _).bind (n := 1) fun n => .guard rfl ?_
      split
      · exact asks_throw rfl
      · exact (Operand.asks_index _).bind_last fun r => .guard rfl (asks_pure _)

theorem asks_system (operands : Text) : Asks 1 (e.system operands) := by
  unfold system
  split
  · exact .guard rfl ((Operand.asks_short _).bind_last fun n => .guard rfl (asks_pure _))
  · exact asks_throw rfl

theorem asks_statement (s : Statement) : Asks s.slots (e.statement s) := by
  cases s with
  | push operand => exact e.asks_push operand
  | copy operands => exact e.asks_copy operands
  | jump mnemonic => exact e.asks_jump mnemonic
  | operation mnemonic => exact .ite (e.asks_operation mnemonic) (asks_throw rfl)
  | peripheral mnemonic operands => exact e.asks_peripheral mnemonic operands
  | system operands => exact e.asks_system operands
  | unknown mnemonic => exact asks_throw rfl

end Encoding

end B100
