import B100.Word
import Mathlib.Logic.Function.Basic

/-! # Words in images

The bytes of a word and the word of two bytes undo each other, so images and lists of words do, too:
every list of words has an image, and every image of even length is that of exactly one list. The
word at an address stands at twice that place.
-/

namespace B100

namespace Word

theorem toNat_ofBytes (high low : UInt8) :
    (ofBytes high low).toNat = 256 * high.toNat + low.toNat := by
  have hhigh := high.toNat_lt
  have hor := Nat.two_pow_add_eq_or_of_lt (i := 8) low.toNat_lt high.toNat
  have height : (8 : UInt16).toNat % 16 = 8 := rfl
  simp only [ofBytes, UInt16.toNat_or, UInt16.toNat_shiftLeft, UInt8.toNat_toUInt16, height,
    Nat.shiftLeft_eq]
  rw [Nat.mod_eq_of_lt (by omega), Nat.mul_comm, ← hor]

theorem toNat_high (w : Word) : (w >>> 8).toUInt8.toNat = w.toNat / 256 := by
  have hw := w.toNat_lt
  have height : (8 : UInt16).toNat % 16 = 8 := rfl
  rw [UInt16.toNat_toUInt8, UInt16.toNat_shiftRight, height, Nat.shiftRight_eq_div_pow]
  omega

theorem ofBytes_bytes (w : Word) : ofBytes (w >>> 8).toUInt8 w.toUInt8 = w := by
  apply UInt16.toNat_inj.mp
  rw [toNat_ofBytes, toNat_high, UInt16.toNat_toUInt8]
  omega

theorem bytes_ofBytes (high low : UInt8) : (ofBytes high low).bytes = [high, low] := by
  have hlow := low.toNat_lt
  have hfirst : (ofBytes high low >>> 8).toUInt8 = high := by
    apply UInt8.toNat_inj.mp
    rw [toNat_high, toNat_ofBytes]
    omega
  have hsecond : (ofBytes high low).toUInt8 = low := by
    apply UInt8.toNat_inj.mp
    rw [UInt16.toNat_toUInt8, toNat_ofBytes]
    omega
  rw [bytes, hfirst, hsecond]

end Word

namespace Image

theorem append_append (d : Text) (u v : List Word) : append d (u ++ v) = append (append d u) v := by
  simp [append]

theorem append_cons (w : Word) (u : List Word) : append [] (w :: u) = w.bytes ++ append [] u := by
  simp [append]

theorem length_append (d : Text) (u : List Word) :
    (append d u).length = d.length + 2 * u.length := by
  have hbytes : ∀ w ∈ u, w.bytes.length = 2 := fun _ _ => rfl
  rw [append, List.length_append, List.length_flatMap, List.map_congr_left hbytes,
    List.map_const', List.sum_replicate_nat, Nat.mul_comm]

theorem words?_append (u : List Word) : words? (append [] u) = some u := by
  induction u with
  | nil => rfl
  | cons w u ih => simp [append_cons, Word.bytes, words?, ih, Word.ofBytes_bytes]

theorem words?_eq_some_iff {b : Text} {u : List Word} : words? b = some u ↔ append [] u = b := by
  constructor
  · intro h
    fun_induction words? b generalizing u with
    | case1 =>
      obtain rfl := Option.some.inj h
      rfl
    | case2 => cases h
    | case3 high low rest ih =>
      obtain ⟨v, hv, rfl⟩ := Option.map_eq_some_iff.mp h
      rw [append_cons, Word.bytes_ofBytes, ih hv]
      rfl
  · rintro rfl
    exact words?_append u

theorem words?_eq_none_iff {b : Text} : words? b = none ↔ b.length % 2 = 1 := by
  fun_induction words? b with
  | case1 => simp
  | case2 => simp
  | case3 high low rest ih =>
    rw [Option.map_eq_none_iff, ih, List.length_cons, List.length_cons]
    omega

theorem words_eq_ok_iff {b : Text} {u : List Word} : words b = .ok u ↔ append [] u = b := by
  rw [← words?_eq_some_iff, words]
  cases words? b <;> simp

theorem words_eq_error_iff {b : Text} {e : OddLength} :
    words b = .error e ↔ b.length % 2 = 1 ∧ e = ⟨b.length⟩ := by
  rw [← words?_eq_none_iff, words]
  cases words? b <;> simp [eq_comm]

theorem words_image (p : Program) : words p.image = .ok p := words_eq_ok_iff.mpr rfl

theorem drop_append (u : List Word) (i : Nat) :
    (append [] u).drop (2 * i) = append [] (u.drop i) := by
  induction u generalizing i with
  | nil => simp [append]
  | cons w u ih =>
    cases i with
    | zero => rfl
    | succ i => exact ih i

theorem bytes_at {u : List Word} {i : Nat} {w : Word} (h : u[i]? = some w) :
    (append [] u)[2 * i]? = some (w >>> 8).toUInt8 ∧
      (append [] u)[2 * i + 1]? = some w.toUInt8 := by
  have hdrop : (append [] u).drop (2 * i) = w.bytes ++ append [] (u.drop (i + 1)) := by
    obtain ⟨hi, rfl⟩ := List.getElem?_eq_some_iff.mp h
    rw [drop_append, List.drop_eq_getElem_cons hi, append_cons]
  have hget : ∀ j, (append [] u)[2 * i + j]? = (w.bytes ++ append [] (u.drop (i + 1)))[j]? := by
    intro j
    rw [← hdrop, List.getElem?_drop]
  exact ⟨hget 0, hget 1⟩

end Image

theorem Program.length_image (p : Program) : p.image.length = 2 * p.length := by
  rw [image, Image.length_append, List.length_nil, Nat.zero_add]

/-- The bytes are those of the words, each with the high byte in front. -/
structure Program.BigEndian (p : Program) (b : Text) : Prop where
  length : b.length = 2 * p.length
  word : ∀ (i : Nat) w, p[i]? = some w → ∃ high low,
    b[2 * i]? = some high ∧ b[2 * i + 1]? = some low ∧ w.toNat = 256 * high.toNat + low.toNat

theorem Program.bigEndian_image (p : Program) : p.BigEndian p.image where
  length := p.length_image
  word i w h := by
    obtain ⟨hhigh, hlow⟩ := Image.bytes_at h
    refine ⟨_, _, hhigh, hlow, ?_⟩
    rw [← Word.toNat_ofBytes, Word.ofBytes_bytes]

theorem Program.image_injective : Function.Injective image := by
  intro p q h
  have hwords := Image.words_image p
  rw [h, Image.words_image] at hwords
  exact (Except.ok.inj hwords).symm

/-- Images and lists of words stand for each other. Words go behind an image one after another, and
are read back. Any bytes are read as long as their number is even, and written back; the word at an
address consists of the two bytes at twice that place. -/
theorem images_stand_for_words (d b : Text) (u v : List Word) :
    Image.append d (u ++ v) = Image.append (Image.append d u) v ∧
    (Image.append d (u ++ v)).length = d.length + 2 * (u.length + v.length) ∧
    d <+: Image.append d (u ++ v) ∧
    Image.words (Image.append [] u) = .ok u ∧
    (∀ e, Image.words b = .error e ↔ b.length % 2 = 1 ∧ e = ⟨b.length⟩) ∧
    (b.length % 2 = 0 → ∃ ws, Image.words b = .ok ws ∧ Image.append [] ws = b ∧
      ws.length = b.length / 2 ∧ ∀ (i : Nat) w, ws[i]? = some w → ∃ high low,
        b[2 * i]? = some high ∧ b[2 * i + 1]? = some low ∧
          w.toNat = 256 * high.toNat + low.toNat) ∧
    Function.Injective Program.image ∧
    ∀ (p : Program) (i : Nat) w, p[i]? = some w →
      p.image[2 * i]? = some (w >>> 8).toUInt8 ∧ p.image[2 * i + 1]? = some w.toUInt8 := by
  refine ⟨Image.append_append d u v, ?_, List.prefix_append _ _, Image.words_eq_ok_iff.mpr rfl,
    fun e => Image.words_eq_error_iff, fun heven => ?_, Program.image_injective,
    fun p i w h => Image.bytes_at h⟩
  · rw [Image.length_append, List.length_append]
  · cases hwords : Image.words b with
    | error e =>
      have hodd := (Image.words_eq_error_iff.mp hwords).1
      omega
    | ok ws =>
      obtain rfl := Image.words_eq_ok_iff.mp hwords
      refine ⟨ws, rfl, rfl, ?_, (Program.bigEndian_image ws).word⟩
      rw [Image.length_append, List.length_nil]
      omega

end B100
