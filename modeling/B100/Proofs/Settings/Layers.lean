import B100.Proofs.Settings.RoundTrip
import B100.Settings.Load

/-! # Layers of settings

Settings are asked for layer by layer, and how the layers are nested makes no difference. A list of
files gives a layer for each file, or the error of the first one that cannot be loaded. A key then
has the value that the first file with an entry for it gives.
-/

namespace B100

namespace Layer

theorem lookupFirst_eq_findSome? (key : Text) (layers : List Layer) :
    lookupFirst key layers = layers.findSome? (lookup key) := by
  induction layers with
  | nil => simp [lookupFirst]
  | cons l layers ih => cases h : lookup key l <;> simp [lookupFirst, h, ih]

theorem lookupFirst_append (key : Text) (upper lower : List Layer) :
    lookupFirst key (upper ++ lower) = (lookupFirst key upper).or (lookupFirst key lower) := by
  simp only [lookupFirst_eq_findSome?, List.findSome?_append]

theorem lookup_stack (key : Text) (layers : List Layer) :
    (stack layers).lookup key = lookupFirst key layers := by
  rw [lookup]

theorem lookup_stack_append {key value : Text} {upper : List Layer}
    (h : (stack upper).lookup key = some value) (lower : List Layer) :
    (stack (upper ++ lower)).lookup key = some value := by
  rw [lookup_stack] at h ⊢
  rw [lookupFirst_append, h]
  rfl

theorem lookupFirst_cons (key : Text) (l : Layer) (layers : List Layer) :
    lookupFirst key (l :: layers) = (l.lookup key).or (lookupFirst key layers) := by
  rw [lookupFirst]
  cases l.lookup key <;> rfl

/-- Somewhere within the layers, a stack is replaced by the layers that it consists of. -/
inductive Unnests : Layer → Layer → Prop
  | here (before inner after : List Layer) :
      Unnests (stack (before ++ stack inner :: after)) (stack (before ++ inner ++ after))
  | inside (before after : List Layer) {l l' : Layer} (h : Unnests l l') :
      Unnests (stack (before ++ l :: after)) (stack (before ++ l' :: after))

theorem Unnests.lookup_eq {l l' : Layer} (h : Unnests l l') (key : Text) :
    l.lookup key = l'.lookup key := by
  induction h with
  | here before inner after =>
    simp only [lookup_stack, lookupFirst_append, lookupFirst_cons, Option.or_assoc]
  | inside before after h ih =>
    simp only [lookup_stack, lookupFirst_append, lookupFirst_cons, ih]

end Layer

/-- The value of the last binding of a key in any spelling. -/
def Document.bound? (d : Document) (key : Text) : Option Text :=
  (d.bindings.filter (·.1.lower = key.lower)).getLast?.map Prod.snd

namespace Settings

variable {read : Text → Except FileError Text} {path key value reason : Text} {paths : List Text}
  {d : Document} {e : LoadError} {v : Settings} {tables : List Settings}

/-- The file at a path can be read, and it holds a document that makes settings. -/
structure Loads (read : Text → Except FileError Text) (path : Text) (d : Document) : Prop where
  document : ∃ s, read path = .ok s ∧ Document.read s = .ok d
  valid : d.Valid

def Gives (read : Text → Except FileError Text) (path : Text) (v : Settings) : Prop :=
  ∃ d, Loads read path d ∧ v = setAll ∅ d.bindings

/-- The error with a file that cannot be loaded, and why. A file that can be opened but not read
fails where its byte order mark is looked for. -/
inductive Refused (read : Text → Except FileError Text) (path : Text) : LoadError → Text → Prop
  | unopened {e : FileError} (h : read path = .error e) (hopen : e.operation ≠ .reading) :
      Refused read path (.file path e) e.message
  | unread {e : FileError} (h : read path = .error e) (hopen : e.operation = .reading) :
      Refused read path (.file path e) ("BOM: " ++ e.message)
  | malformed {s : Text} {e : SettingsError} (h : read path = .ok s) (hparse : parse s = .error e) :
      Refused read path (.content path e) e.message

def FileBinds (read : Text → Except FileError Text) (path key value : Text) : Prop :=
  ∃ d, Loads read path d ∧ d.bound? key = some value

/-- All files before the path can be loaded, and the one at the path cannot. -/
structure FailsFirst (read : Text → Except FileError Text) (before : List Text) (path : Text)
    (e : LoadError) (reason : Text) : Prop where
  loaded : ∀ q ∈ before, ∃ d, Loads read q d
  refused : Refused read path e reason

theorem parse_eq_ok_iff {s : Text} :
    parse s = .ok v ↔ ∃ d, Document.read s = .ok d ∧ d.Valid ∧ v = setAll ∅ d.bindings := by
  rw [parse]
  cases Document.read s with
  | error e =>
    constructor
    · intro h
      cases h
    · rintro ⟨d, h, -⟩
      cases h
  | ok d =>
    change d.settings = .ok v ↔ _
    rw [Document.settings_eq_ok_iff]
    constructor
    · intro h
      exact ⟨d, rfl, h⟩
    · rintro ⟨_, ⟨⟩, h⟩
      exact h

theorem load_eq_ok_iff : load read path = .ok v ↔ Gives read path v := by
  unfold load Gives
  cases hread : read path with
  | error e =>
    refine ⟨nofun, ?_⟩
    rintro ⟨d, ⟨⟨s, hs, -⟩, -⟩, -⟩
    cases hread.symm.trans hs
  | ok s =>
    rw [mapError_eq_ok_iff, parse_eq_ok_iff]
    constructor
    · rintro ⟨d, hd, hvalid, rfl⟩
      exact ⟨d, ⟨⟨s, hread, hd⟩, hvalid⟩, rfl⟩
    · rintro ⟨d, ⟨⟨s', hs', hd⟩, hvalid⟩, rfl⟩
      obtain rfl := Except.ok.inj (hread.symm.trans hs')
      exact ⟨d, hd, hvalid, rfl⟩

theorem exists_load_iff : (∃ v, load read path = .ok v) ↔ ∃ d, Loads read path d := by
  constructor
  · rintro ⟨v, hv⟩
    obtain ⟨d, hd, -⟩ := load_eq_ok_iff.mp hv
    exact ⟨d, hd⟩
  · rintro ⟨d, hd⟩
    exact ⟨_, load_eq_ok_iff.mpr ⟨d, hd, rfl⟩⟩

theorem load_eq_error_iff : load read path = .error e ↔ ∃ reason, Refused read path e reason := by
  constructor
  · intro h
    unfold load at h
    cases hread : read path with
    | error f =>
      rw [hread] at h
      obtain rfl := Except.error.inj h
      by_cases hopen : f.operation = .reading
      · exact ⟨_, .unread hread hopen⟩
      · exact ⟨_, .unopened hread hopen⟩
    | ok s =>
      rw [hread] at h
      obtain ⟨f, hparse, rfl⟩ := mapError_eq_error_iff.mp h
      exact ⟨_, .malformed hread hparse⟩
  · rintro ⟨reason, h⟩
    unfold load
    cases h with
    | unopened h hopen => rw [h]
    | unread h hopen => rw [h]
    | malformed h hparse =>
      rw [h]
      exact mapError_eq_error_iff.mpr ⟨_, hparse, rfl⟩

theorem Refused.message (h : Refused read path e reason) : e.message = path ++ ": " ++ reason := by
  cases h with
  | unopened h hopen => rw [LoadError.message, if_neg hopen]
  | unread h hopen =>
    rw [LoadError.message, if_pos hopen]
    simp only [List.append_assoc]
    rfl
  | malformed h hparse => rw [LoadError.message]

theorem loadAll_eq_ok_iff :
    loadAll read paths = .ok tables ↔ List.Forall₂ (Gives read) paths tables := by
  rw [loadAll, mapM_eq_ok_iff]
  simp only [load_eq_ok_iff]

theorem loadAll_eq_error_iff :
    loadAll read paths = .error e ↔ ∃ before path after reason,
      paths = before ++ path :: after ∧ FailsFirst read before path e reason := by
  rw [loadAll, mapM_eq_error_iff]
  simp only [exists_load_iff, load_eq_error_iff]
  constructor
  · rintro ⟨before, path, after, hpaths, hbefore, reason, hpath⟩
    exact ⟨before, path, after, reason, hpaths, hbefore, hpath⟩
  · rintro ⟨before, path, after, reason, hpaths, hfirst⟩
    exact ⟨before, path, after, hpaths, hfirst.loaded, reason, hfirst.refused⟩

theorem loads_of_loadAll (h : loadAll read paths = .ok tables) :
    ∀ path ∈ paths, ∃ d, Loads read path d := by
  have hload := loadAll_eq_ok_iff.mp h
  clear h
  induction hload with
  | nil => nofun
  | cons hv _ ih =>
    obtain ⟨d, hd, -⟩ := hv
    exact List.forall_mem_cons.mpr ⟨⟨d, hd⟩, ih⟩

theorem Loads.not_refused (h : Loads read path d) : ¬ Refused read path e reason := by
  intro hr
  cases (load_eq_ok_iff.mpr ⟨d, h, rfl⟩).symm.trans (load_eq_error_iff.mpr ⟨reason, hr⟩)

theorem Loads.fileBinds_iff (h : Loads read path d) :
    FileBinds read path key value ↔ d.bound? key = some value := by
  constructor
  · rintro ⟨d', h', hvalue⟩
    obtain ⟨s, hs, hd⟩ := h.document
    obtain ⟨s', hs', hd'⟩ := h'.document
    obtain rfl := Except.ok.inj (hs.symm.trans hs')
    obtain rfl := Except.ok.inj (hd.symm.trans hd')
    exact hvalue
  · exact fun hvalue => ⟨d, h, hvalue⟩

theorem exists_loads_of_plain {ls : List (PlainLine IsSectionWord)}
    (h : read path = .ok (Source.join (ls.map PlainLine.text))) :
    ∃ d, Loads read path d ∧
      ∀ key, d.bound? key = Entry.last (·.key = key.lower) (PlainLine.entries ls) := by
  obtain ⟨d, hread, hgathers⟩ := PlainLine.read (fun _ hname => hname.isHeaderName) ls
  obtain ⟨v, hsettings, hv⟩ := hgathers.settings
  obtain ⟨hvalid, rfl⟩ := Document.settings_eq_ok_iff.mp hsettings
  refine ⟨d, ⟨⟨_, h, hread⟩, hvalid⟩, fun key => ?_⟩
  rw [← hv, Document.bound?, ← lookup_setAll, lookup]

theorem exists_loadAll_iff :
    (∃ tables, loadAll read paths = .ok tables) ↔ ∀ path ∈ paths, ∃ d, Loads read path d := by
  constructor
  · rintro ⟨tables, h⟩
    exact loads_of_loadAll h
  · intro h
    cases hall : loadAll read paths with
    | ok tables => exact ⟨tables, rfl⟩
    | error e =>
      obtain ⟨before, path, after, reason, rfl, hfirst⟩ := loadAll_eq_error_iff.mp hall
      obtain ⟨d, hd⟩ := h path (by simp)
      exact absurd hfirst.refused hd.not_refused

theorem FailsFirst.congr {other : Text → Except FileError Text} {before : List Text}
    (h : FailsFirst read before path e reason)
    (hsame : ∀ q ∈ before ++ [path], other q = read q) :
    FailsFirst other before path e reason := by
  have hpath : other path = read path := hsame path (by simp)
  constructor
  · intro q hq
    obtain ⟨d, ⟨s, hs, hd⟩, hvalid⟩ := h.loaded q hq
    exact ⟨d, ⟨s, (hsame q (List.mem_append_left _ hq)).trans hs, hd⟩, hvalid⟩
  · cases h.refused with
    | unopened hread hopen => exact .unopened (hpath.trans hread) hopen
    | unread hread hopen => exact .unread (hpath.trans hread) hopen
    | malformed hread hparse => exact .malformed (hpath.trans hread) hparse

def fileLookup (read : Text → Except FileError Text) (key path : Text) : Option Text :=
  (load read path).toOption.bind (·.lookup key)

theorem fileLookup_eq_some_iff :
    fileLookup read key path = some value ↔ FileBinds read path key value := by
  unfold fileLookup
  cases hload : load read path with
  | error e =>
    obtain ⟨reason, hr⟩ := load_eq_error_iff.mp hload
    exact ⟨nofun, fun ⟨d, hd, _⟩ => absurd hr hd.not_refused⟩
  | ok v =>
    obtain ⟨d, hd, rfl⟩ := load_eq_ok_iff.mp hload
    change lookup _ key = some value ↔ _
    rw [hd.fileBinds_iff, lookup_setAll, Document.bound?]

theorem fileLookup_eq_none_iff :
    fileLookup read key path = none ↔ ∀ value, ¬ FileBinds read path key value := by
  simp only [← fileLookup_eq_some_iff, Option.eq_none_iff_forall_ne_some, ne_eq]

/-- The layers of a list of files answer as the files do, one after the other. -/
theorem lookup_of_loadAll (h : loadAll read paths = .ok tables) (key : Text) :
    (Layer.stack (tables.map .table)).lookup key = paths.findSome? (fileLookup read key) := by
  have hload := loadAll_eq_ok_iff.mp h
  clear h
  rw [Layer.lookup_stack, Layer.lookupFirst_eq_findSome?, List.findSome?_map]
  induction hload with
  | nil => rfl
  | @cons path v paths tables hv _ ih =>
    have hfile : fileLookup read key path = v.lookup key := by
      rw [fileLookup, load_eq_ok_iff.mpr hv]
      rfl
    rw [List.findSome?_cons, List.findSome?_cons, hfile, ih, Function.comp_apply, Layer.lookup]

end Settings

/-- A list of files makes layers of settings. The list can be loaded exactly if every file can be
read and holds a document that makes settings, and a key is then found in the first file that binds
it in any spelling. Otherwise the first file that cannot be loaded decides the error, whatever the
files behind it hold. Plain files can always be loaded, and bind the keys of their entries. Layers
put below others answer what those do not, and a stack within the layers is as good as its own
layers. -/
theorem files_make_layers (t : FileTree) (paths : List Text) :
    ((∃ tables, Settings.loadAll t.read paths = .ok tables) ↔
      ∀ path ∈ paths, ∃ d, Settings.Loads t.read path d) ∧
    (∀ tables, Settings.loadAll t.read paths = .ok tables → ∀ key,
      (∀ value, (Layer.stack (tables.map .table)).lookup key = some value ↔
        ∃ before path after, paths = before ++ path :: after ∧
          Settings.FileBinds t.read path key value ∧
          ∀ q ∈ before, ∀ other, ¬ Settings.FileBinds t.read q key other) ∧
      ((Layer.stack (tables.map .table)).lookup key = none ↔
        ∀ path ∈ paths, ∀ value, ¬ Settings.FileBinds t.read path key value)) ∧
    (∀ e, Settings.loadAll t.read paths = .error e ↔ ∃ before path after reason,
      paths = before ++ path :: after ∧ Settings.FailsFirst t.read before path e reason) ∧
    (∀ before path e reason, Settings.FailsFirst t.read before path e reason →
      e.message = path ++ ": " ++ reason ∧
      ∀ (u : FileTree) (after : List Text), (∀ q ∈ before ++ [path], u.read q = t.read q) →
        Settings.loadAll u.read (before ++ path :: after) = .error e) ∧
    (∀ (path : Text) (ls : List (PlainLine IsSectionWord)),
      t.read path = .ok (Source.join (ls.map PlainLine.text)) →
      (∃ d, Settings.Loads t.read path d) ∧ ∀ key value,
        Settings.FileBinds t.read path key value ↔
          Entry.last (·.key = key.lower) (PlainLine.entries ls) = some value) ∧
    (∀ (key : Text) (upper lower : List Layer), (Layer.stack (upper ++ lower)).lookup key =
      ((Layer.stack upper).lookup key).or ((Layer.stack lower).lookup key)) ∧
    ∀ l l' : Layer, l.Unnests l' → ∀ key, l.lookup key = l'.lookup key := by
  refine ⟨Settings.exists_loadAll_iff, fun tables h key => ?_,
    fun e => Settings.loadAll_eq_error_iff,
    fun before path e reason h => ⟨h.refused.message, fun u after hsame => ?_⟩,
    fun path ls hpath => ?_, fun key upper lower => ?_, fun l l' h => h.lookup_eq⟩
  · rw [Settings.lookup_of_loadAll h]
    constructor
    · intro value
      simp only [List.findSome?_eq_some_iff, Settings.fileLookup_eq_some_iff,
        Settings.fileLookup_eq_none_iff]
    · simp only [List.findSome?_eq_none_iff, Settings.fileLookup_eq_none_iff]
  · exact Settings.loadAll_eq_error_iff.mpr ⟨before, path, after, reason, rfl, h.congr hsame⟩
  · obtain ⟨d, hd, hbound⟩ := Settings.exists_loads_of_plain hpath
    refine ⟨⟨d, hd⟩, fun key value => ?_⟩
    rw [hd.fileBinds_iff, hbound]
  · simp only [Layer.lookup_stack, Layer.lookupFirst_append]

end B100
