import B100.Proofs.Assembly.FirstError
import B100.Proofs.Encoding.Lookups
import B100.Proofs.Encoding.Statement
import B100.Proofs.Settings.Reading

/-! # Settings in a source

Every setting that is read from a file can be used in a source: its key can be written as an
operand, and a push of the key asks for that key and nothing else.
-/

namespace B100

open Encoder Text

open Source (newline)

theorem isForbiddenInName_eq_false_iff {s : Text} : s.any isForbiddenInName = false ↔
    ∀ b ∈ s, isSpaceOrTab b = false ∧ b ≠ '.'.toUInt8 := by
  simp [isForbiddenInName]

namespace Section

/-- What the keys of a section have in common, up to the last dot. -/
structure IsStem (stem : Text) : Prop where
  lower : stem.lower = stem
  conf : ("$conf." : Text) <+: stem ++ ['.'.toUInt8]
  plain : ∀ b ∈ stem, isSpaceOrTab b = false ∧ b ≠ newline
  dots : stem.count '.'.toUInt8 = 0 ∨ stem.count '.'.toUInt8 = 1

theorem exists_isStem {s : Section} (hname : IsSectionName s.name) (hkeyed : s.Keyed) :
    ∃ stem : Text, IsStem stem ∧ s.keyStem = stem ++ ['.'.toUInt8] := by
  unfold keyStem
  cases hdefault : s.isDefault with
  | true =>
    exact ⟨"$conf", ⟨by decide, List.prefix_rfl, by decide +kernel, .inl (by decide)⟩, rfl⟩
  | false =>
    have hplain := isForbiddenInName_eq_false_iff.mp (hkeyed.resolve_left (by simp [hdefault]))
    have hlower : s.name.lower = s.name := by
      refine hname.lower.resolve_left fun hd => ?_
      rw [isDefault, hd] at hdefault
      exact absurd hdefault (by decide +kernel)
    have hconf : Visible "$conf." := by decide
    have hfront : ∀ b ∈ ("$conf." : Text), isSpaceOrTab b = false ∧ b ≠ newline := by decide +kernel
    refine ⟨"$conf." ++ s.name, ⟨?_, ?_, ?_, ?_⟩, rfl⟩
    · rw [lower_append_ascii hconf.ascii, hlower]
      rfl
    · exact ⟨s.name ++ ['.'.toUInt8], (List.append_assoc ..).symm⟩
    · intro b hb
      rcases List.mem_append.mp hb with hb | hb
      · exact hfront b hb
      · exact ⟨(hplain b hb).1, fun hn => hname.newline_notMem (hn ▸ hb)⟩
    · right
      rw [List.count_append, List.count_eq_zero.mpr fun hb => (hplain _ hb).2 rfl]
      rfl

end Section

namespace Settings

/-- A key that can be looked up and written in a source: `$conf.`, perhaps a section, and a name. -/
structure WellFormedKey (key : Text) : Prop where
  lower : key.lower = key
  conf : ("$conf." : Text) <+: key
  plain : ∀ b ∈ key, isSpaceOrTab b = false ∧ b ≠ newline
  dots : key.count '.'.toUInt8 = 1 ∨ key.count '.'.toUInt8 = 2
  name : ∃ name, (key.splitOn '.'.toUInt8).getLast? = some name ∧ name ≠ []
  trimmed : key.trim = key

theorem wellFormedKey_append {stem name : Text} (hstem : Section.IsStem stem)
    (hname : IsEntryName name) (hplain : ∀ b ∈ name, isSpaceOrTab b = false ∧ b ≠ '.'.toUInt8) :
    WellFormedKey (stem ++ '.'.toUInt8 :: name) := by
  have hdot : '.'.toUInt8 ∉ name := fun hb => (hplain _ hb).2 rfl
  have hconf : ("$conf." : Text) <+: stem ++ '.'.toUInt8 :: name := by
    obtain ⟨rest, hrest⟩ := hstem.conf
    exact ⟨rest ++ name, by rw [← List.append_assoc, hrest, List.append_assoc]; rfl⟩
  refine ⟨?_, hconf, ?_, ?_, ⟨name, ?_, hname.nonempty⟩, ?_⟩
  · rw [lower_append_cons (by decide) (by decide), hstem.lower, hname.lower]
  · intro b hb
    rcases List.mem_append.mp hb with hb | hb
    · exact hstem.plain b hb
    · rcases List.mem_cons.mp hb with rfl | hb
      · decide
      · exact ⟨(hplain b hb).1, fun hn => hname.newline_notMem (hn ▸ hb)⟩
  · rw [List.count_append, List.count_cons_self, List.count_eq_zero.mpr hdot]
    exact hstem.dots.imp (by omega) (by omega)
  · rw [List.splitOn_append_cons_self, List.splitOn_eq_singleton hdot, List.getLast?_concat]
  · -- The key begins with a dollar sign and ends as the name does.
    obtain ⟨rest, hrest⟩ := hconf
    have hlast := (trim_eq_self_iff.mp hname.trimmed).2
    refine trim_eq_self_iff.mpr ⟨?_, ?_⟩
    · rw [← hrest, glyphs_ascii_append (by decide +kernel)]
      rintro g ⟨rfl⟩
      decide
    · rw [glyphs_append_ascii (by decide), List.getLast?_append_of_ne_nil _ (List.cons_ne_nil _ _),
        List.getLast?_cons_of_ne_nil (glyphs_ne_nil hname.nonempty)]
      exact hlast

theorem wellFormedKey_of_parse {s : Text} {v : Settings} (h : parse s = .ok v) {key value : Text}
    (hv : v[key]? = some value) : WellFormedKey key ∧ value ≠ [] ∧ value.trim = value := by
  unfold parse at h
  cases hd : Document.read s with
  | error e =>
    rw [hd] at h
    cases h
  | ok d =>
    rw [hd] at h
    have hnamed := Document.named_of_read hd
    obtain ⟨hvalid, -⟩ := Document.settings_eq_ok_iff.mp h
    obtain ⟨b, hb, rfl, rfl⟩ := Document.exists_binding h hv
    obtain ⟨sec, hs, entry, he, rfl⟩ := Document.mem_bindings.mp hb
    obtain ⟨hplain, hne⟩ := hvalid.entries sec hs entry he
    obtain ⟨stem, hstem, hkey⟩ :=
      Section.exists_isStem (hnamed.sections _ (List.mem_map_of_mem hs)) (hvalid.keyed sec hs)
    have hwell := wellFormedKey_append hstem (hnamed.entries _ entry ⟨sec, hs, rfl, he⟩)
      (isForbiddenInName_eq_false_iff.mp hplain)
    rw [← List.singleton_append, ← List.append_assoc, ← hkey] at hwell
    refine ⟨?_, hne, trim_trim _⟩
    rw [hwell.lower]
    exact hwell

end Settings

namespace Assembly

variable (isa : InstructionSet) (resolve : Text → Option Text)

theorem assemble_line {text : Text} (htrim : text.trim = text) (hnewline : newline ∉ text)
    (hkind : LineKind.ofTrimmed text = .instruction) :
    (assemble isa resolve text).lookups =
        Encoder.lookups resolve (Encoding.instruction ⟨isa, ∅⟩ text) ∧
      (assemble isa resolve text).outcome =
        ((result resolve (Encoding.instruction ⟨isa, ∅⟩ text)).mapError (⟨1, ·⟩)).map ([·]) := by
  have hne : text ≠ [] := by
    rintro rfl
    cases hkind
  have hlines : Source.lines text = [⟨text, 1, .instruction⟩] := by
    have hpieces : Source.pieces text = [text] := List.splitOn_eq_singleton hnewline
    have hraw : Source.rawLines text = [text] := by
      rw [Source.rawLines_eq, hpieces]
      simp [Source.dropFinalEmpty, hne]
    simp [Source.lines, hraw, Line.ofRaw, LineKind.classify, htrim, hkind]
  have hlabels : Source.labels [⟨text, 1, .instruction⟩] = ∅ := rfl
  have hfilter : [(⟨text, 1, .instruction⟩ : Line)].filter Line.isInstruction =
      [⟨text, 1, .instruction⟩] := rfl
  simp only [assemble, hlines, hlabels, hfilter, List.map_singleton, collect, List.foldr_cons,
    List.foldr_nil, Encoding.line]
  rcases h : (Encoding.instruction ⟨isa, ∅⟩ text).run.run resolve with ⟨asked, fault | w⟩
  all_goals simp [Encoder.lookups, result, h, cons, Except.mapError, Except.map]

end Assembly

namespace Encoding

variable (e : Encoding) {key : Text} (hkey : Settings.WellFormedKey key)

include hkey

theorem pushValue_key : e.pushValue key =
    (Operand.setting key >>= fun n =>
      if n < 0 then throw (.negativeSetting key n) else pure n) := by
  obtain ⟨rest, rfl⟩ := hkey.conf
  rfl

theorem instruction_push_key : e.instruction ("push " ++ key) =
    (e.pushValue key >>= fun n => pure (e.isa.tag .push ||| Word.ofInt n)) := by
  have hpush : Visible "push" := by decide
  have hany : key.any isSpaceOrTab = false :=
    List.any_eq_false.mpr fun b hb => by simp [(hkey.plain b hb).1]
  have hdrop : key.dropWhile isSpaceOrTab = key := by
    obtain ⟨rest, rfl⟩ := hkey.conf
    rfl
  have htext : ("push " : Text) ++ key = "push" ++ ' '.toUInt8 :: key := rfl
  rw [instruction, htext, Statement.ofText_space hpush, Statement.withOperands_push, hdrop,
    statement, push]
  simp only [hkey.trimmed, hany, Bool.false_eq_true, if_false]

variable (resolve : Text → Option Text)

theorem lookups_push_key :
    lookups resolve (e.instruction ("push " ++ key)) = [⟨key, resolve key⟩] := by
  rw [e.instruction_push_key hkey, lookups_bind_of_silent fun _ => rfl, e.pushValue_key hkey,
    lookups_bind_of_silent, Operand.lookups_setting]
  intro n
  split <;> rfl

theorem result_push_key {value : Text} (hvalue : resolve key = some value)
    (htrim : value.trim = value) :
    result resolve (e.instruction ("push " ++ key)) =
      match Literal.short value with
      | .ok n =>
        if n < 0 then .error (.negativeSetting key n) else .ok (e.isa.tag .push ||| Word.ofInt n)
      | .error error => .error (.unreadableSetting key error) := by
  rw [e.instruction_push_key hkey, e.pushValue_key hkey]
  simp only [result_bind, Operand.result_setting, hvalue, htrim, result_ite]
  cases Literal.short value with
  | error error => rfl
  | ok n =>
    by_cases hn : n < 0 <;> simp [hn, Except.mapError, Except.bind]

end Encoding

theorem instruction_line_push_key {key : Text} (hkey : Settings.WellFormedKey key) :
    trim ("push " ++ key) = "push " ++ key ∧ newline ∉ ("push " : Text) ++ key ∧
      LineKind.ofTrimmed ("push " ++ key) = .instruction := by
  have hascii : ∀ b ∈ ("push " : Text), b < 0x80 := by decide +kernel
  have hne : key ≠ [] := by
    obtain ⟨rest, rfl⟩ := hkey.conf
    exact List.cons_ne_nil _ _
  refine ⟨?_, ?_, ?_⟩
  · refine trim_eq_self_iff.mpr ⟨?_, ?_⟩
    · rw [glyphs_ascii_append hascii]
      rintro g ⟨rfl⟩
      decide
    · rw [glyphs_ascii_append hascii, List.getLast?_append_of_ne_nil _ (glyphs_ne_nil hne)]
      exact (trim_eq_self_iff.mp hkey.trimmed).2
  · intro hn
    rcases List.mem_append.mp hn with hn | hn
    · revert hn
      decide
    · exact (hkey.plain _ hn).2 rfl
  · have hlen : ¬ (glyphs ("push " ++ key)).length < 2 := by
      rw [glyphs_ascii_append hascii, List.length_append]
      have h5 : (glyphs "push ").length = 5 := by decide
      omega
    simp only [LineKind.ofTrimmed, hlen, decide_false, Bool.false_or]
    rfl

/-- Every setting that is read from a text is well formed and usable. Its key is written in lower
case as `$conf.` with one or two names, can be typed, and is looked up by a push of it, which comes
to the number of the value. -/
theorem parsed_settings_are_usable {s : Text} {v : Settings} (hparse : Settings.parse s = .ok v)
    {key value : Text} (hv : v[key]? = some value) :
    Settings.WellFormedKey key ∧ value ≠ [] ∧ value.trim = value ∧
      let a := assemble .standard v.lookup ("push " ++ key)
      a.lookups = [⟨key, some value⟩] ∧
      (∀ n, Literal.short value = .ok n → 0 ≤ n → a.outcome = .ok [0x8000 ||| Word.ofInt n]) ∧
      (∀ n, Literal.short value = .ok n → n < 0 →
        ∃ fault, a.outcome = .error ⟨1, fault⟩ ∧ fault.kind = .negativeOperand) ∧
      (∀ error, Literal.short value = .error error →
        ∃ fault, a.outcome = .error ⟨1, fault⟩ ∧ fault.kind = .invalidOperand) := by
  obtain ⟨hkey, hne, htrim⟩ := Settings.wellFormedKey_of_parse hparse hv
  have hlookup : v.lookup key = some value := by rw [Settings.lookup, hkey.lower, hv]
  obtain ⟨hline, hnewline, hkind⟩ := instruction_line_push_key hkey
  obtain ⟨hlookups, houtcome⟩ := Assembly.assemble_line .standard v.lookup hline hnewline hkind
  rw [Encoding.lookups_push_key _ hkey, hlookup] at hlookups
  rw [Encoding.result_push_key _ hkey _ hlookup htrim] at houtcome
  refine ⟨hkey, hne, htrim, hlookups, ?_, ?_, ?_⟩
  · intro n hn hpos
    rw [houtcome, hn]
    simp only [if_neg (Int.not_lt.mpr hpos)]
    rfl
  · intro n hn hneg
    refine ⟨.negativeSetting key n, ?_, rfl⟩
    rw [houtcome, hn]
    simp only [if_pos hneg]
    rfl
  · intro error herror
    refine ⟨.unreadableSetting key error, ?_, rfl⟩
    rw [houtcome, herror]
    rfl

theorem parsed_settings_are_usable_quoted :
    let s : Text := "Gain = 9\n[Größe,IO]\n- = 0x1F ; size\n\"Ä=B\" = -2\n"
    let size : Text := "$conf.größe,io.#1"
    let other : Text := "$conf.größe,io.ä=b"
    ∃ v, Settings.parse s = .ok v ∧ v[size]? = some (utf8 "0x1F") ∧ v[other]? = some (utf8 "-2") ∧
      Settings.WellFormedKey size ∧
      (assemble .standard v.lookup ("push " ++ size)).lookups = [⟨size, some (utf8 "0x1F")⟩] ∧
      (assemble .standard v.lookup ("push " ++ size)).outcome = .ok [0x801F] ∧
      ∃ fault, (assemble .standard v.lookup ("push " ++ other)).outcome = .error ⟨1, fault⟩ ∧
        fault.kind = .negativeOperand := by
  intro s size other
  have hsize : (Settings.parse s).toOption.bind (·[size]?) = some (utf8 "0x1F") := by decide +kernel
  have hother : (Settings.parse s).toOption.bind (·[other]?) = some (utf8 "-2") := by decide +kernel
  cases hparse : Settings.parse s with
  | error e =>
    rw [hparse] at hsize
    cases hsize
  | ok v =>
    rw [hparse] at hsize hother
    obtain ⟨hkey, -, -, hlookups, hpush, -⟩ := parsed_settings_are_usable hparse hsize
    obtain ⟨-, -, -, -, -, hnegative, -⟩ := parsed_settings_are_usable hparse hother
    exact ⟨v, rfl, hsize, hother, hkey, hlookups, hpush 0x1F (by decide) (by decide),
      hnegative (-2) (by decide) (by decide)⟩

end B100
