import B100.Proofs.Settings.Document
import B100.Proofs.Settings.Lines
import Mathlib.Data.List.Nodup

/-! # Entries in their places

Plain files are remarks, headers and entries, one on each line. Each entry goes to the section that
was opened last. The document has one section for each name that is opened, in the order of their
first headers, and a section keeps the last value of each of its entries.
-/

namespace B100

open Text

open Source (newline)

structure Header (P : Text → Prop) where
  name : Text
  valid : P name

/-- A line of a plain file, whose headers have a property. -/
inductive PlainLine (P : Text → Prop) where
  | remark (l : Text) (h : Reader.IsRemark l)
  | header (h : Header P)
  | entry (name value : Text) (isWord : Operand.isWord name = true) (isPlain : IsPlain value)

/-- An entry with the header that it stands under, if there is one. -/
structure Entry (P : Text → Prop) where
  header : Option (Header P)
  name : Text
  value : Text
  isWord : Operand.isWord name = true
  isPlain : IsPlain value

variable {P : Text → Prop}

def Header.place (h : Option (Header P)) : Text :=
  (h.map fun h => Document.storedName h.name).getD Document.defaultName

namespace PlainLine

def text : PlainLine P → Text
  | remark l _ => l
  | header h => Reader.headerLine h.name
  | entry name value _ _ => Reader.entryLine name value

def entriesFrom : Option (Header P) → List (PlainLine P) → List (Entry P)
  | _, [] => []
  | current, remark _ _ :: ls => entriesFrom current ls
  | _, header h :: ls => entriesFrom (some h) ls
  | current, entry name value isWord isPlain :: ls =>
    ⟨current, name, value, isWord, isPlain⟩ :: entriesFrom current ls

def entries (ls : List (PlainLine P)) : List (Entry P) := entriesFrom none ls

end PlainLine

namespace Entry

variable {q : Entry P → Prop} [DecidablePred q]

/-- The value that the last entry with a property gives. -/
def last (q : Entry P → Prop) [DecidablePred q] (es : List (Entry P)) : Option Text :=
  (es.filter q).getLast?.map value

def IsAt (e : Entry P) (place name : Text) : Prop :=
  Header.place e.header = place ∧ e.name.lower = name

instance (e : Entry P) (place name : Text) : Decidable (e.IsAt place name) :=
  inferInstanceAs (Decidable (_ ∧ _))

theorem last_concat (es : List (Entry P)) (e : Entry P) :
    last q (es ++ [e]) = if q e then some e.value else last q es := by
  unfold last
  rw [List.filter_append]
  split
  · next h =>
    rw [List.filter_cons_of_pos (by simpa using h), List.filter_nil, List.getLast?_concat]
    rfl
  · next h => rw [List.filter_cons_of_neg (by simpa using h), List.filter_nil, List.append_nil]

theorem exists_of_last_eq_some {es : List (Entry P)} {value : Text} (h : last q es = some value) :
    ∃ e, q e ∧ e.value = value := by
  obtain ⟨e, he, rfl⟩ := Option.map_eq_some_iff.mp h
  exact ⟨e, of_decide_eq_true (List.mem_filter.mp (List.mem_of_getLast? he)).2, rfl⟩

end Entry

namespace Document

variable {d : Document} {es : List (Entry P)} {e : Entry P} {place : Text}

theorem referred?_eq_none {s : Text} (h : '%'.toUInt8 ∉ s) : referred? s = none := by
  induction s with
  | nil => rfl
  | cons b s ih =>
    rw [referred?, after?_eq_none (b := '%'.toUInt8) (by decide) h]
    exact ih fun hs => h (List.mem_cons_of_mem b hs)

theorem expanded_of_isPlain {s : Section} {entry : Text × Text} (h : IsPlain entry.2) :
    d.expanded s entry = entry.2 := by
  rw [expanded, expand, expandIn, referred?_eq_none (h.notMem (by decide))]
  exact h.visible.clean.trim_eq_self

theorem valid_of_plain
    (hsections : ∀ n ∈ d.names, n.lower = defaultName ∨ Operand.isWord n = true)
    (hentries : ∀ n entry, d.Holds n entry → Operand.isWord entry.1 = true ∧ IsPlain entry.2) :
    d.Valid := by
  have hforbidden : ∀ {name : Text}, Operand.isWord name = true →
      name.any isForbiddenInName = false := by
    intro name hname
    rw [List.any_eq_false]
    intro b hb
    have hplain := (IsPlain.of_isWord hname).plain b hb
    exact forall_plain (P := fun b => ¬ isForbiddenInName b = true) (by decide) hplain
  constructor
  · intro s hs
    rcases hsections s.name (List.mem_map_of_mem hs) with hn | hn
    · exact .inl (by rw [Section.isDefault, hn, beq_self_eq_true])
    · exact .inr (hforbidden hn)
  · intro s hs entry he
    obtain ⟨hname, hvalue⟩ := hentries s.name entry ⟨s, hs, rfl, he⟩
    rw [expanded_of_isPlain hvalue]
    exact ⟨hforbidden hname, hvalue.nonempty⟩

/-- The entries of the document are the given ones, each with its last value. -/
def Records (d : Document) (es : List (Entry P)) : Prop :=
  ∀ n entry, d.Holds n entry ↔ Entry.last (·.IsAt n entry.1) es = some entry.2

theorem Records.put (h : d.Records es) (hplace : Header.place e.header ∈ d.names) :
    (d.put (Header.place e.header) e.name.lower e.value).Records (es ++ [e]) := by
  intro n entry
  rw [holds_put, h, Entry.last_concat]
  by_cases hhere : e.IsAt n entry.1
  · obtain ⟨rfl, hn⟩ := hhere
    rw [if_pos ⟨rfl, hn⟩, Option.some_inj]
    constructor
    · rintro (⟨-, -, rfl⟩ | ⟨-, hother⟩)
      · rfl
      · exact absurd ⟨rfl, hn.symm⟩ hother
    · intro hvalue
      exact .inl ⟨rfl, hplace, Prod.ext hn.symm hvalue.symm⟩
  · rw [if_neg hhere]
    constructor
    · rintro (⟨rfl, -, rfl⟩ | ⟨hlast, -⟩)
      · exact absurd ⟨rfl, rfl⟩ hhere
      · exact hlast
    · intro hlast
      exact .inr ⟨hlast, fun hsame => hhere ⟨hsame.1.symm, hsame.2.symm⟩⟩

/-- The sections that have been opened by headers with the property, and the entries in them. -/
structure Gathers (es : List (Entry P)) (d : Document) : Prop where
  /-- The default section comes first. -/
  first : d.names.head? = some defaultName
  nodup : d.names.Nodup
  sections : ∀ n ∈ d.names, ∃ h : Option (Header P), n = Header.place h
  records : d.Records es

theorem Gathers.exists_entry (h : d.Gathers es) {entry : Text × Text} (he : d.Holds place entry) :
    ∃ e : Entry P, e.IsAt place entry.1 ∧ e.value = entry.2 :=
  Entry.exists_of_last_eq_some ((h.records place entry).mp he)

theorem Gathers.addSection (h : d.Gathers es) (header : Header P) :
    (d.addSection (storedName header.name)).Gathers es where
  first := by
    unfold Document.addSection
    split
    · exact h.first
    · rw [names, List.map_append, List.head?_append]
      exact Option.or_eq_some_iff.mpr (.inl h.first)
  nodup := by
    unfold Document.addSection
    split
    · exact h.nodup
    · next hnew =>
      have hnotMem : storedName header.name ∉ d.names := by
        intro hmem
        obtain ⟨s, hs, hn⟩ := List.mem_map.mp hmem
        exact hnew (List.find?_isSome.mpr ⟨s, hs, beq_iff_eq.mpr hn⟩)
      rw [names, List.map_append]
      exact h.nodup.append (List.nodup_singleton _) (by simpa using hnotMem)
  sections n hn := by
    rcases mem_names_addSection.mp hn with hn | rfl
    · exact h.sections n hn
    · exact ⟨some header, rfl⟩
  records n entry := by rw [holds_addSection, h.records]

theorem Gathers.put (h : d.Gathers es) (hplace : Header.place e.header ∈ d.names) :
    (d.put (Header.place e.header) e.name.lower e.value).Gathers (es ++ [e]) where
  first := by rw [names_put, h.first]
  nodup := by
    rw [names_put]
    exact h.nodup
  sections := by
    rw [names_put]
    exact h.sections
  records := h.records.put hplace

theorem Gathers.valid (h : d.Gathers es)
    (hsections : ∀ n ∈ d.names, n.lower = defaultName ∨ Operand.isWord n = true) : d.Valid := by
  refine valid_of_plain hsections ?_
  rintro n ⟨name, value⟩ he
  obtain ⟨e, ⟨-, rfl⟩, rfl⟩ := h.exists_entry he
  exact ⟨Operand.isWord_lower e.isWord, e.isPlain⟩

end Document

structure IsHeaderName (name : Text) : Prop where
  nonempty : name ≠ []
  newline_notMem : newline ∉ name

namespace Reader

variable {es : List (Entry P)} {current : Option (Header P)} {r : Reader} {tail : Text}

/-- The reader has gathered the entries, and the section of the header is open. -/
structure Reads (es : List (Entry P)) (current : Option (Header P)) (r : Reader) : Prop where
  unfinished : r.unfinished = none
  current : r.current = Header.place current
  present : r.current ∈ r.document.names
  document : r.document.Gathers es

theorem reads_start : Reads ([] : List (Entry P)) none start where
  unfinished := rfl
  current := rfl
  present := List.mem_singleton_self _
  document := {
    first := rfl
    nodup := List.nodup_singleton _
    sections := fun n hn => ⟨none, List.mem_singleton.mp hn⟩
    records := by
      intro n entry
      constructor
      · rintro ⟨s, hs, -, he⟩
        obtain rfl := List.mem_singleton.mp hs
        cases he
      · nofun }

theorem Reads.header (h : Reads es current r) {header : Header P} (hname : header.name ≠ [])
    (ht : tail.IsBlank) :
    ∃ r', r.next (headerLine header.name ++ tail) = .ok r' ∧ Reads es (some header) r' := by
  refine ⟨_, next_header h.unfinished hname ht, h.unfinished, rfl, ?_,
    h.document.addSection header⟩
  exact Document.mem_names_addSection.mpr (.inr rfl)

theorem Reads.entry {e : Entry P} (h : Reads es e.header r) (ht : tail.IsBlank) :
    ∃ r', r.next (entryLine e.name e.value ++ tail) = .ok r' ∧ Reads (es ++ [e]) e.header r' := by
  have hpresent := h.present
  have hnext := next_entry h.unfinished e.isWord e.isPlain ht
  rw [h.current] at hpresent hnext
  refine ⟨_, hnext, rfl, rfl, ?_, h.document.put hpresent⟩
  rw [Document.names_put]
  exact hpresent

/-- Line by line, the reader gathers the entries. -/
theorem Reads.foldlM (hP : ∀ name, P name → IsHeaderName name) {ls : List (PlainLine P)}
    {pieces : List Text} (h : Reads es current r)
    (hp : List.Forall₂ (fun l piece => ∃ tail : Text, tail.IsBlank ∧ piece = l ++ tail)
      (ls.map PlainLine.text) pieces) :
    ∃ r' last, pieces.foldlM next r = .ok r' ∧
      Reads (es ++ PlainLine.entriesFrom current ls) last r' := by
  induction ls generalizing es current r pieces with
  | nil =>
    cases hp
    exact ⟨r, current, rfl, by rwa [PlainLine.entriesFrom, List.append_nil]⟩
  | cons l ls ih =>
    obtain ⟨piece, rest, ⟨tail, ht, rfl⟩, hrest, rfl⟩ := List.forall₂_cons_left_iff.mp hp
    rw [List.foldlM_cons]
    cases l with
    | remark l hl =>
      rw [PlainLine.text, next_remark h.unfinished hl ht]
      exact ih h hrest
    | header header =>
      obtain ⟨r', hnext, hr'⟩ := h.header (hP _ header.valid).nonempty ht
      rw [PlainLine.text, hnext]
      exact ih hr' hrest
    | entry name value isWord isPlain =>
      obtain ⟨r', hnext, hr'⟩ :=
        Reads.entry (e := ⟨current, name, value, isWord, isPlain⟩) h ht
      rw [PlainLine.text, hnext, PlainLine.entriesFrom, List.append_cons]
      exact ih hr' hrest

end Reader

structure IsFileLine (l : Text) : Prop where
  newline_notMem : newline ∉ l
  head_lt : ∀ b ∈ l.head?, b < 0xEF

theorem Reader.IsRemark.isFileLine {l : Text} (h : Reader.IsRemark l) : IsFileLine l := by
  obtain ⟨hnewline, lead, rest, rfl, hlead, hrest⟩ := h
  refine ⟨hnewline, fun b hb => ?_⟩
  cases lead with
  | nil => exact UInt8.lt_trans (Reader.visible_of_isCommentMark (hrest b hb)).2 (by decide)
  | cons c lead => exact hlead.head_lt b hb

theorem IsHeaderName.isFileLine {name : Text} (h : IsHeaderName name) :
    IsFileLine (Reader.headerLine name) where
  newline_notMem := by
    simp only [Reader.headerLine, List.mem_cons, List.mem_append, List.not_mem_nil, or_false,
      not_or]
    exact ⟨by decide, h.newline_notMem, by decide⟩
  head_lt := by
    rintro b ⟨rfl⟩
    decide

theorem isFileLine_entryLine {name value : Text} (hname : Operand.isWord name = true)
    (hvalue : IsPlain value) : IsFileLine (Reader.entryLine name value) := by
  have hclean : Clean (Reader.entryLine name value) := by
    have hequals : Clean "=" := Visible.clean (by decide)
    have hline : Reader.entryLine name value =
        name ++ ' '.toUInt8 :: ("=" ++ ' '.toUInt8 :: value) := by
      rw [Reader.entryLine, List.append_assoc]
      rfl
    rw [hline]
    exact (IsPlain.of_isWord hname).visible.clean.append_space
      (hequals.append_space hvalue.visible.clean)
  exact ⟨hclean.newline_notMem, fun b hb =>
    UInt8.lt_trans (hclean.ascii b (List.mem_of_head? hb)) (by decide)⟩

/-- What begins no line with a byte order mark does not begin with one itself. -/
theorem head_join_lt {ls : List Text} (h : ∀ l ∈ ls, IsFileLine l) :
    ∀ b ∈ (Source.join ls).head?, b < 0xEF := by
  match ls with
  | [] => nofun
  | [l] =>
    have hjoin : Source.join [l] = l := by simp [Source.join]
    rw [hjoin]
    exact (h l List.mem_cons_self).head_lt
  | [] :: m :: ls =>
    have hjoin : (Source.join ([] :: m :: ls)).head? = some newline := by
      simp [Source.join, List.intercalate_cons_cons]
    rw [hjoin]
    rintro b ⟨rfl⟩
    decide
  | (c :: l) :: m :: ls =>
    have hjoin : (Source.join ((c :: l) :: m :: ls)).head? = some c := by
      simp [Source.join, List.intercalate_cons_cons]
    rw [hjoin]
    exact (h (c :: l) List.mem_cons_self).head_lt

namespace PlainLine

variable (hP : ∀ name, P name → IsHeaderName name)
include hP

theorem isFileLine (l : PlainLine P) : IsFileLine l.text := by
  cases l with
  | remark l hl => exact hl.isFileLine
  | header h => exact (hP _ h.valid).isFileLine
  | entry name value isWord isPlain => exact isFileLine_entryLine isWord isPlain

/-- A file of plain lines can be read, and its document gathers the entries. -/
theorem read (ls : List (PlainLine P)) :
    ∃ d, Document.read (Source.join (ls.map text)) = .ok d ∧ d.Gathers (entries ls) := by
  have hof : ∀ ls : List (PlainLine P), ls ≠ [] →
      ∃ d, Document.read (Source.join (ls.map text)) = .ok d ∧ d.Gathers (entries ls) := by
    intro ls hne
    have hlines : ∀ l ∈ ls.map text, IsFileLine l := by
      intro l hl
      obtain ⟨l, -, rfl⟩ := List.mem_map.mp hl
      exact l.isFileLine hP
    have hpieces := Document.forall₂_pieces_join (by simpa using hne) fun l hl =>
      (hlines l hl).newline_notMem
    obtain ⟨r, last, hfold, hreads⟩ := Reader.reads_start.foldlM hP hpieces
    refine ⟨r.document, ?_, hreads.document⟩
    rw [Document.read, Document.dropMark_eq_self (head_join_lt hlines), hfold]
    change r.finish = _
    rw [Reader.finish, hreads.unfinished]
  cases ls with
  | cons l ls => exact hof _ (List.cons_ne_nil _ _)
  | nil =>
    -- An empty file has one empty line.
    exact hof [.remark [] ⟨nofun, [], [], rfl, nofun, nofun⟩] (List.cons_ne_nil _ _)

end PlainLine

end B100
