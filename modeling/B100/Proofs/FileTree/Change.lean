import B100.Proofs.FileTree.Leads

/-! # Changes to file trees

Writing touches one file. `Keeps` says that whatever could be reached can still be reached, and
`AlikeBut` that moreover nothing but one file has changed, so that every other path leads where it
led and every other file holds what it held.
-/

namespace B100.FileTree

variable {t u : FileTree} {k links here i : Nat} {parts : List Text} {place : Place} {path : Text}

/-- What could be reached can still be reached: directories may gain names, and links stay. -/
structure Keeps (t u : FileTree) : Prop where
  workingDirectory : u.workingDirectory = t.workingDirectory
  directory : ∀ {i parent : Nat} {entries : List (Text × Nat)},
    t.directory? i = some (parent, entries) →
      ∃ more, u.directory? i = some (parent, entries ++ more)
  node : ∀ {i : Nat} {n : Node}, t.nodes[i]? = some n →
    ∃ m, u.nodes[i]? = some m ∧ m.link? = n.link?

theorem Keeps.refl (t : FileTree) : Keeps t t where
  workingDirectory := rfl
  directory h := ⟨[], by rw [h, List.append_nil]⟩
  node h := ⟨_, h, rfl⟩

/-- The node at a place: the place is a node, or a name under which there now is a file. -/
inductive Holds (u : FileTree) : Place → Nat → Prop
  | node (i : Nat) : u.Holds (.node i) i
  | name {d parent i : Nat} {entries : List (Text × Nat)} {name content : Text}
    (directory : u.directory? d = some (parent, entries)) (entry : entries.lookup name = some i)
    (file : u.nodes[i]? = some (.file content)) : u.Holds (.vacancy d name) i

/-- A path that led to a place leads to the node that is now there. -/
theorem Keeps.leads (h : Keeps t u) (hl : t.Leads links here parts place) (hi : u.Holds place i) :
    u.Leads links here parts (.node i) := by
  induction hl with
  | done =>
    cases hi
    exact .done
  | stay directory stays onward ih =>
    obtain ⟨more, hm⟩ := h.directory directory
    exact .stay hm stays (ih hi)
  | up directory notHere goesUp onward ih =>
    obtain ⟨more, hm⟩ := h.directory directory
    exact .up hm notHere goesUp (ih hi)
  | free directory isName entry =>
    cases hi with
    | name hd he hf => exact .enter hd isName he hf rfl .done
  | enter directory isName entry node link onward ih =>
    obtain ⟨more, hm⟩ := h.directory directory
    obtain ⟨m, hn, hk⟩ := h.node node
    exact .enter hm isName (by rw [List.lookup_append, entry]; rfl) hn (hk.trans link) (ih hi)
  | follow directory isName entry node link onward ih =>
    obtain ⟨more, hm⟩ := h.directory directory
    obtain ⟨m, hn, hk⟩ := h.node node
    exact .follow hm isName (by rw [List.lookup_append, entry]; rfl) hn (hk.trans link) (ih hi)

theorem Keeps.find {creating : Bool} (h : Keeps t u) (hl : t.locate creating path = .ok place)
    (hi : u.Holds place i) : u.find path = .ok i := by
  obtain ⟨ha, hl⟩ := leads_of_locate hl
  rw [find_eq_ok_iff, h.workingDirectory]
  exact ⟨ha, h.leads hl hi⟩

theorem Keeps.find_node (h : Keeps t u) (hf : t.find path = .ok i) : u.find path = .ok i := by
  rw [find_eq_ok_iff] at hf ⊢
  exact ⟨hf.1, h.workingDirectory ▸ h.leads hf.2 (.node i)⟩

/-- The trees differ in the file `k` only, which may be new. Directories may have new names for
it. -/
structure AlikeBut (k : Nat) (t u : FileTree) : Prop where
  workingDirectory : u.workingDirectory = t.workingDirectory
  before : ∀ n, t.nodes[k]? = some n → ∃ content, n = .file content
  after : ∃ content, u.nodes[k]? = some (.file content)
  others : ∀ i ≠ k, u.nodes[i]? = t.nodes[i]? ∨ ∃ parent entries more,
    t.nodes[i]? = some (.directory parent entries) ∧
      u.nodes[i]? = some (.directory parent (entries ++ more)) ∧ ∀ x ∈ more, x.2 = k

theorem directory?_eq_some_iff {parent : Nat} {entries : List (Text × Nat)} :
    t.directory? i = some (parent, entries) ↔ t.nodes[i]? = some (.directory parent entries) := by
  unfold directory?
  rcases t.nodes[i]? with _ | n
  · simp
  · cases n <;> simp

theorem leads_of_file {content : Text} (hf : t.nodes[i]? = some (.file content))
    (hl : t.Leads links i parts place) : place = .node i := by
  have hd : ∀ {parent : Nat} {entries : List (Text × Nat)},
      t.directory? i ≠ some (parent, entries) := by
    intro parent entries h
    rw [directory?_eq_some_iff, hf] at h
    cases h
  cases hl with
  | done => rfl
  | stay directory _ _ => exact absurd directory hd
  | up directory _ _ _ => exact absurd directory hd
  | free directory _ _ => exact absurd directory hd
  | enter directory _ _ _ _ _ => exact absurd directory hd
  | follow directory _ _ _ _ _ => exact absurd directory hd

def contentAt? (t : FileTree) (i : Nat) : Option Text :=
  match t.nodes[i]? with
  | some (.file content) => some content
  | some (.directory _ _) => none
  | _ => some []

theorem read_eq_ok_iff {content : Text} :
    t.read path = .ok content ↔ ∃ i, t.find path = .ok i ∧ t.contentAt? i = some content := by
  unfold read contentAt?
  cases t.find path with
  | error reason => simp
  | ok i =>
    rcases hn : t.nodes[i]? with _ | n
    · simp [hn]
    · cases n <;> simp [hn]

namespace AlikeBut

variable (h : AlikeBut k t u)
include h

theorem node_iff (hi : i ≠ k) {n : Node} (hn : ∀ parent entries, n ≠ .directory parent entries) :
    u.nodes[i]? = some n ↔ t.nodes[i]? = some n := by
  rcases h.others i hi with he | ⟨parent, entries, more, ht, hu, -⟩
  · rw [he]
  · rw [ht, hu]
    constructor
    · rintro ⟨rfl⟩
      exact absurd rfl (hn _ _)
    · rintro ⟨rfl⟩
      exact absurd rfl (hn _ _)

theorem directory {parent : Nat} {entries : List (Text × Nat)}
    (hd : u.directory? i = some (parent, entries)) :
    ∃ old more, t.directory? i = some (parent, old) ∧ entries = old ++ more ∧
      ∀ x ∈ more, x.2 = k := by
  simp only [directory?_eq_some_iff] at hd ⊢
  by_cases hi : i = k
  · obtain ⟨content, hc⟩ := h.after
    rw [hi, hc] at hd
    cases hd
  · rcases h.others i hi with he | ⟨parent', old, more, ht, hu, hm⟩
    · exact ⟨entries, [], he ▸ hd, by simp, by simp⟩
    · rw [hu] at hd
      obtain ⟨rfl, rfl⟩ := Node.directory.inj (Option.some.inj hd)
      exact ⟨old, more, ht, rfl, hm⟩

theorem keeps : Keeps t u where
  workingDirectory := h.workingDirectory
  directory {i parent entries} hd := by
    simp only [directory?_eq_some_iff] at hd ⊢
    have hi : i ≠ k := by
      rintro rfl
      obtain ⟨content, hc⟩ := h.before _ hd
      cases hc
    rcases h.others i hi with he | ⟨parent', entries', more, ht, hu, -⟩
    · exact ⟨[], by rw [he, hd, List.append_nil]⟩
    · obtain ⟨rfl, rfl⟩ := Node.directory.inj (Option.some.inj (hd.symm.trans ht))
      exact ⟨more, hu⟩
  node {i n} hn := by
    by_cases hi : i = k
    · subst hi
      obtain ⟨content, rfl⟩ := h.before n hn
      obtain ⟨content', hc⟩ := h.after
      exact ⟨_, hc, rfl⟩
    · rcases h.others i hi with he | ⟨parent, entries, more, ht, hu, -⟩
      · exact ⟨n, he ▸ hn, rfl⟩
      · obtain rfl := Option.some.inj (hn.symm.trans ht)
        exact ⟨_, hu, rfl⟩

theorem node_back (hi : i ≠ k) {n : Node} (hn : u.nodes[i]? = some n) :
    ∃ m, t.nodes[i]? = some m ∧ m.link? = n.link? := by
  rcases h.others i hi with he | ⟨parent, entries, more, ht, hu, -⟩
  · exact ⟨n, he ▸ hn, rfl⟩
  · obtain rfl := Option.some.inj (hn.symm.trans hu)
    exact ⟨_, ht, rfl⟩

theorem entry_back {parent : Nat} {entries : List (Text × Nat)} {name : Text} (hi : i ≠ k)
    (hd : u.directory? here = some (parent, entries)) (he : entries.lookup name = some i) :
    ∃ old, t.directory? here = some (parent, old) ∧ old.lookup name = some i := by
  obtain ⟨old, more, ht, rfl, hm⟩ := h.directory hd
  refine ⟨old, ht, ?_⟩
  rw [List.lookup_append, Option.or_eq_some_iff] at he
  rcases he with he | ⟨-, he⟩
  · exact he
  · obtain ⟨l₁, l₂, rfl, -⟩ := List.lookup_eq_some_iff.mp he
    exact absurd (hm (name, i) (by simp)) hi

/-- A path that does not lead to the changed file leads where it led. -/
theorem leads_back (hi : i ≠ k) (hl : u.Leads links here parts (.node i)) :
    t.Leads links here parts (.node i) := by
  obtain ⟨content, hfile⟩ := h.after
  generalize hp : Place.node i = place at hl
  induction hl with
  | done => exact .done
  | stay directory stays onward ih =>
    obtain ⟨old, more, ht, -, -⟩ := h.directory directory
    exact .stay ht stays (ih hp)
  | up directory notHere goesUp onward ih =>
    obtain ⟨old, more, ht, -, -⟩ := h.directory directory
    exact .up ht notHere goesUp (ih hp)
  | free directory isName entry => cases hp
  | @enter links here parent j entries name rest n place directory isName entry node link onward
      ih =>
    have hj : j ≠ k := by
      rintro rfl
      subst hp
      exact hi (Place.node.inj (leads_of_file hfile onward))
    obtain ⟨old, ht, he⟩ := h.entry_back hj directory entry
    obtain ⟨m, hm, hk⟩ := h.node_back hj node
    exact .enter ht isName he hm (hk.trans link) (ih hp)
  | @follow links here parent j entries name target rest n place directory isName entry node link
      onward ih =>
    have hj : j ≠ k := by
      rintro rfl
      obtain rfl := Option.some.inj (hfile.symm.trans node)
      cases link
    obtain ⟨old, ht, he⟩ := h.entry_back hj directory entry
    obtain ⟨m, hm, hk⟩ := h.node_back hj node
    exact .follow ht isName he hm (hk.trans link) (ih hp)

theorem find_iff (hi : i ≠ k) : u.find path = .ok i ↔ t.find path = .ok i := by
  constructor
  · intro hf
    rw [find_eq_ok_iff, h.workingDirectory] at hf
    exact find_eq_ok_iff.mpr ⟨hf.1, h.leads_back hi hf.2⟩
  · exact h.keeps.find_node

theorem contentAt?_eq (hi : i ≠ k) : u.contentAt? i = t.contentAt? i := by
  unfold contentAt?
  rcases h.others i hi with he | ⟨parent, entries, more, ht, hu, -⟩
  · rw [he]
  · rw [ht, hu]

/-- Every path that does not lead to the changed file reads as before. -/
theorem read_iff {content : Text} (hk : u.find path ≠ .ok k) :
    u.read path = .ok content ↔ t.read path = .ok content := by
  rw [read_eq_ok_iff, read_eq_ok_iff]
  constructor
  · rintro ⟨i, hf, hc⟩
    have hi : i ≠ k := by
      rintro rfl
      exact hk hf
    exact ⟨i, (h.find_iff hi).mp hf, h.contentAt?_eq hi ▸ hc⟩
  · rintro ⟨i, hf, hc⟩
    have hi : i ≠ k := by
      rintro rfl
      exact hk (h.keeps.find_node hf)
    exact ⟨i, (h.find_iff hi).mpr hf, h.contentAt?_eq hi ▸ hc⟩

theorem nodes_fill (content : Text) : (u.fill k content).nodes[k]? = some (.file content) := by
  obtain ⟨old, hold⟩ := h.after
  obtain ⟨hlt, -⟩ := Array.getElem?_eq_some_iff.mp hold
  rw [fill, hold]
  exact Array.getElem?_setIfInBounds_self_of_lt hlt

theorem fill (content : Text) : AlikeBut k t (u.fill k content) where
  workingDirectory := by
    obtain ⟨old, hold⟩ := h.after
    rw [FileTree.fill, hold]
    exact h.workingDirectory
  before := h.before
  after := ⟨content, h.nodes_fill content⟩
  others i hi := by
    obtain ⟨old, hold⟩ := h.after
    have hnode : (u.fill k content).nodes[i]? = u.nodes[i]? := by
      rw [FileTree.fill, hold]
      exact Array.getElem?_setIfInBounds_ne hi.symm
    rw [hnode]
    exact h.others i hi

end AlikeBut

theorem alikeBut_self {content : Text} (hf : t.nodes[k]? = some (.file content)) :
    AlikeBut k t t where
  workingDirectory := rfl
  before _ hn := ⟨content, Option.some.inj (hn.symm.trans hf)⟩
  after := ⟨content, hf⟩
  others _ _ := .inl rfl

theorem Leads.vacancy {d : Nat} {name : Text} (hl : t.Leads links here parts (.vacancy d name)) :
    ∃ parent entries, t.directory? d = some (parent, entries) ∧ entries.lookup name = none := by
  generalize hp : Place.vacancy d name = place at hl
  induction hl with
  | done => cases hp
  | stay _ _ _ ih => exact ih hp
  | up _ _ _ _ ih => exact ih hp
  | free directory isName entry =>
    obtain ⟨rfl, rfl⟩ := Place.vacancy.inj hp
    exact ⟨_, _, directory, entry⟩
  | enter _ _ _ _ _ _ ih => exact ih hp
  | follow _ _ _ _ _ _ ih => exact ih hp

section Add

variable {d parent : Nat} {entries : List (Text × Nat)}
  (hd : t.directory? d = some (parent, entries)) (name content : Text)
include hd

theorem nodes_add (i : Nat) :
    (t.add d name (.file content)).nodes[i]? =
      if i = t.nodes.size then some (.file content)
      else if i = d then some (.directory parent (entries ++ [(name, t.nodes.size)]))
      else t.nodes[i]? := by
  obtain ⟨hlt, -⟩ := Array.getElem?_eq_some_iff.mp (directory?_eq_some_iff.mp hd)
  simp only [add, hd, Array.getElem?_push, Array.size_setIfInBounds, Array.getElem?_setIfInBounds,
    if_pos hlt, eq_comm]

theorem alikeBut_add : AlikeBut t.nodes.size t (t.add d name (.file content)) where
  workingDirectory := by rw [add, hd]
  before n hn := by
    simp at hn
  after := ⟨content, by rw [nodes_add hd, if_pos rfl]⟩
  others i hi := by
    rw [nodes_add hd, if_neg hi]
    split
    · next he =>
      subst he
      exact .inr
        ⟨parent, entries, [(name, t.nodes.size)], directory?_eq_some_iff.mp hd, rfl, by simp⟩
    · exact .inl rfl

theorem holds_add (hn : entries.lookup name = none) :
    (t.add d name (.file content)).Holds (.vacancy d name) t.nodes.size := by
  obtain ⟨hlt, -⟩ := Array.getElem?_eq_some_iff.mp (directory?_eq_some_iff.mp hd)
  have hdir : (t.add d name (.file content)).directory? d =
      some (parent, entries ++ [(name, t.nodes.size)]) := by
    rw [directory?_eq_some_iff, nodes_add hd, if_neg (Nat.ne_of_lt hlt), if_pos rfl]
  exact .name hdir (by simp [List.lookup_append, hn]) (by rw [nodes_add hd, if_pos rfl])

end Add

/-- A tree in which a path has been opened to be written, and the node it leads to: a file that may
be new, or a device. -/
inductive Opened (t : FileTree) (path : Text) : FileTree → Nat → Prop
  | file {u : FileTree} {k : Nat} (find : u.find path = .ok k) (change : AlikeBut k t u)
    (place : t.nodes[k]? = none ∨ t.find path = .ok k) : Opened t path u k
  | device {k : Nat} (find : t.find path = .ok k) (node : ∀ c, t.nodes[k]? ≠ some (.file c)) :
    Opened t path t k

theorem fill_of_not_file (h : ∀ c, t.nodes[k]? ≠ some (.file c)) (content : Text) :
    t.fill k content = t := by
  unfold fill
  split
  · next c hc => exact absurd hc (h c)
  · rfl

theorem Opened.find (h : Opened t path u k) : u.find path = .ok k := by
  cases h with
  | file find change place => exact find
  | device find node => exact find

theorem Opened.fill (h : Opened t path u k) (content : Text) :
    Opened t path (u.fill k content) k := by
  cases h with
  | file find change place =>
    obtain ⟨old, hold⟩ := change.after
    have hfind := ((alikeBut_self hold).fill content).keeps.find_node find
    exact .file hfind (change.fill content) place
  | device find node =>
    rw [fill_of_not_file node]
    exact .device find node

theorem Opened.content_fill (h : Opened t path u k) {content c : Text}
    (hc : (u.fill k content).nodes[k]? = some (.file c)) : c = content := by
  cases h with
  | file find change place =>
    exact Node.file.inj (Option.some.inj (hc.symm.trans (change.nodes_fill content)))
  | device find node =>
    rw [fill_of_not_file node] at hc
    exact absurd hc (node c)

theorem create_eq_ok {mishap? : Option Mishap} (h : t.create mishap? path = .ok (u, k)) :
    Opened t path u k := by
  unfold create at h
  split at h
  · cases h
  · cases h
  · next d name hl _ =>
    obtain ⟨rfl, rfl⟩ := Prod.mk.inj (Except.ok.inj h)
    obtain ⟨parent, entries, hd, hn⟩ := (leads_of_locate hl).2.vacancy
    have ha := alikeBut_add hd name []
    exact .file (ha.keeps.find hl (holds_add hd name [] hn)) ha (.inl Array.getElem?_size)
  · next i hl _ =>
    have hfind : t.find path = .ok i := (Keeps.refl t).find hl (.node i)
    split at h
    · cases h
    · obtain ⟨rfl, rfl⟩ := Prod.mk.inj (Except.ok.inj h)
      by_cases hnode : ∃ c, t.nodes[i]? = some (.file c)
      · obtain ⟨c, hc⟩ := hnode
        exact (Opened.file hfind (alikeBut_self hc) (.inr hfind)).fill []
      · exact (Opened.device hfind fun c hc => hnode ⟨c, hc⟩).fill []

theorem create_eq_error {mishap? : Option Mishap} {e : FileError}
    (h : t.create mishap? path = .error e) : e.operation = .opening := by
  unfold create at h
  split at h
  · exact (Except.error.inj h) ▸ rfl
  · exact (Except.error.inj h) ▸ rfl
  · cases h
  · split at h
    · exact (Except.error.inj h) ▸ rfl
    · cases h

/-- How a write ends, with the tree that it leaves behind and what has gone wrong. Either the path
could not be opened, or a file is left with a front part of what was to be written, which is all of
it if nothing has gone wrong. -/
inductive WriteEnds (t : FileTree) (path content : Text) : FileTree → Option FileError → Prop
  | unopened {e : FileError} (operation : e.operation = .opening) :
    WriteEnds t path content t (some e)
  | opened {u : FileTree} {k : Nat} {error? : Option FileError} (opened : Opened t path u k)
    (operation : ∀ e, error? = some e → e.operation ≠ .opening)
    (front : ∀ c, u.nodes[k]? = some (.file c) → c <+: content)
    (whole : error? = none → ∀ c, u.nodes[k]? = some (.file c) → c = content) :
    WriteEnds t path content u error?

theorem Opened.whole (h : Opened t path u k) (content : Text) :
    WriteEnds t path content (u.fill k content) none :=
  .opened (h.fill content) nofun (fun _ hc => (h.content_fill hc).symm ▸ List.prefix_refl content)
    fun _ _ hc => h.content_fill hc

theorem Opened.cut {content taken : Text} {e : FileError} (h : Opened t path u k)
    (hfront : taken <+: content) (hop : e.operation ≠ .opening) :
    WriteEnds t path content (u.fill k taken) (some e) := by
  refine .opened (h.fill taken) ?_ (fun _ hc => h.content_fill hc ▸ hfront) nofun
  rintro _ ⟨⟩
  exact hop

theorem write_ends (t : FileTree) (mishap? : Option Mishap) (path content : Text) :
    WriteEnds t path content (t.write mishap? path content).1 (t.write mishap? path content).2 := by
  unfold write
  cases hc : t.create mishap? path with
  | error e => exact .unopened (create_eq_error hc)
  | ok opened =>
    obtain ⟨u, k⟩ := opened
    have ho := create_eq_ok hc
    dsimp only
    split
    · next hfull =>
      have hfill : u.fill k [] = u := fill_of_not_file (fun c hc => nomatch hfull.symm.trans hc) []
      have hcut : WriteEnds t path content (u.fill k []) (some ⟨.writing, path, .noSpace⟩) :=
        ho.cut List.nil_prefix nofun
      rwa [hfill] at hcut
    · exact ho.cut (List.take_prefix _ _) nofun
    · exact ho.cut (List.prefix_refl _) nofun
    · exact ho.whole content

def OneFile (t : FileTree) (a b : Text) : Prop :=
  Path.clean a = Path.clean b ∨ ∃ i, t.find a = .ok i ∧ t.find b = .ok i

theorem same_eq_true_iff {a b : Text} : t.same a b = true ↔ t.OneFile a b := by
  rw [same, Bool.or_eq_true, beq_iff_eq, OneFile]
  apply or_congr_right
  cases t.find a with
  | error reason => simp
  | ok i =>
    cases t.find b with
    | error reason => simp
    | ok j =>
      constructor
      · intro h
        exact ⟨i, rfl, congrArg _ (beq_iff_eq.mp h).symm⟩
      · rintro ⟨k, ⟨⟩, ⟨⟩⟩
        exact beq_self_eq_true _

end B100.FileTree
