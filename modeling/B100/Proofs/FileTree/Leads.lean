import B100.FileTree.Basic

/-! # Where paths lead

The way of a path through a file tree as a relation, one rule for each kind of step. Looking up a
path finds exactly the places that the relation gives, and the places where a file can be created
are among them.
-/

namespace B100

def Node.link? : Node → Option Text
  | link target => some target
  | _ => none

/-- A part that is looked up among the entries of a directory. -/
structure Path.IsName (part : Text) : Prop where
  notHere : ¬ Path.isHere part = true
  notUp : ¬ Path.isUp part = true
  length : ¬ 255 < part.length

namespace FileTree

/-- From a node, the parts of a path lead to a place through at most so many links. -/
inductive Leads (t : FileTree) : Nat → Nat → List Text → Place → Prop
  | done {links here : Nat} : t.Leads links here [] (.node here)
  | stay {links here parent : Nat} {entries : List (Text × Nat)} {part : Text} {rest : List Text}
    {place : Place} (directory : t.directory? here = some (parent, entries))
    (stays : Path.isHere part = true) (onward : t.Leads links here rest place) :
    t.Leads links here (part :: rest) place
  | up {links here parent : Nat} {entries : List (Text × Nat)} {part : Text} {rest : List Text}
    {place : Place} (directory : t.directory? here = some (parent, entries))
    (notHere : ¬ Path.isHere part = true) (goesUp : Path.isUp part = true)
    (onward : t.Leads links parent rest place) : t.Leads links here (part :: rest) place
  | free {links here parent : Nat} {entries : List (Text × Nat)} {name : Text}
    (directory : t.directory? here = some (parent, entries)) (isName : Path.IsName name)
    (entry : entries.lookup name = none) : t.Leads links here [name] (.vacancy here name)
  | enter {links here parent i : Nat} {entries : List (Text × Nat)} {name : Text}
    {rest : List Text} {n : Node} {place : Place}
    (directory : t.directory? here = some (parent, entries)) (isName : Path.IsName name)
    (entry : entries.lookup name = some i) (node : t.nodes[i]? = some n) (link : n.link? = none)
    (onward : t.Leads links i rest place) : t.Leads links here (name :: rest) place
  | follow {links here parent i : Nat} {entries : List (Text × Nat)} {name target : Text}
    {rest : List Text} {n : Node} {place : Place}
    (directory : t.directory? here = some (parent, entries)) (isName : Path.IsName name)
    (entry : entries.lookup name = some i) (node : t.nodes[i]? = some n)
    (link : n.link? = some target)
    (onward : t.Leads links (origin here target) (Path.parts target ++ rest) place) :
    t.Leads (links + 1) here (name :: rest) place

variable {t : FileTree} {creating : Bool} {links here parent i : Nat} {place : Place}
  {entries : List (Text × Nat)} {part : Text} {rest parts : List Text}

def onward (t : FileTree) (creating : Bool) : Nat → Nat → List Text → Except Reason Place
  | 0 => fun _ _ => .error .tooManyLinks
  | links + 1 => t.walk creating links

theorem walk_eq_descend (t : FileTree) (creating : Bool) (links : Nat) :
    t.walk creating links = t.descend creating (t.onward creating links) := by
  cases links <;> rfl

theorem walk_cons_of_none (h : t.directory? here = none) :
    t.walk creating links here (part :: rest) = .error .notDirectory := by
  rw [walk_eq_descend, descend, h]

theorem walk_cons_of_isHere (h : t.directory? here = some (parent, entries))
    (hp : Path.isHere part = true) :
    t.walk creating links here (part :: rest) = t.walk creating links here rest := by
  simp only [walk_eq_descend]
  rw [descend, h]
  simp only [if_pos hp]

theorem walk_cons_of_isUp (h : t.directory? here = some (parent, entries))
    (hh : ¬ Path.isHere part = true) (hp : Path.isUp part = true) :
    t.walk creating links here (part :: rest) = t.walk creating links parent rest := by
  simp only [walk_eq_descend]
  rw [descend, h]
  simp only [if_neg hh, if_pos hp]

def arrive (t : FileTree) (creating : Bool) (links here : Nat) (rest : List Text) (i : Nat) :
    Except Reason Place :=
  match t.nodes[i]? with
  | none => .error .notFound
  | some n =>
    match n.link? with
    | some target => t.onward creating links (origin here target) (Path.parts target ++ rest)
    | none => t.walk creating links i rest

theorem walk_cons_of_isName (h : t.directory? here = some (parent, entries))
    (hp : Path.IsName part) :
    t.walk creating links here (part :: rest) =
      if creating && !rest.isEmpty && rest.all List.isEmpty then .error .isDirectory
      else
        match entries.lookup part with
        | none => if rest.isEmpty then .ok (.vacancy here part) else .error .notFound
        | some i => t.arrive creating links here rest i := by
  simp only [walk_eq_descend, arrive]
  rw [descend, h]
  simp only [if_neg hp.notHere, if_neg hp.notUp, if_neg hp.length]
  congr 1
  cases entries.lookup part with
  | none => rfl
  | some i =>
    rcases hn : t.nodes[i]? with _ | n
    · simp [hn]
    · cases n <;> simp [hn, Node.link?]

theorem walk_cons_of_long (h : t.directory? here = some (parent, entries))
    (hh : ¬ Path.isHere part = true) (hu : ¬ Path.isUp part = true) (hl : 255 < part.length) :
    ∃ reason, t.walk creating links here (part :: rest) = .error reason := by
  rw [walk_eq_descend, descend, h]
  simp only [if_neg hh, if_neg hu, if_pos hl]
  split
  · exact ⟨_, rfl⟩
  · exact ⟨_, rfl⟩

/-- The parts are taken one by one; at a link the rest is left to what follows it. -/
theorem leads_of_walk_of_onward
    (ho : ∀ here parts, t.onward creating links here parts = .ok place →
      ∃ fewer, links = fewer + 1 ∧ t.Leads fewer here parts place)
    (h : t.walk creating links here parts = .ok place) : t.Leads links here parts place := by
  induction parts generalizing here with
  | nil =>
    rw [walk_eq_descend] at h
    obtain rfl := Except.ok.inj h
    exact .done
  | cons part rest ih =>
    cases hd : t.directory? here with
    | none =>
      rw [walk_cons_of_none hd] at h
      cases h
    | some x =>
      obtain ⟨parent, entries⟩ := x
      by_cases hh : Path.isHere part = true
      · rw [walk_cons_of_isHere hd hh] at h
        exact .stay hd hh (ih h)
      by_cases hu : Path.isUp part = true
      · rw [walk_cons_of_isUp hd hh hu] at h
        exact .up hd hh hu (ih h)
      by_cases hl : 255 < part.length
      · obtain ⟨reason, he⟩ : ∃ reason, t.walk creating links here (part :: rest) = .error reason :=
          walk_cons_of_long hd hh hu hl
        rw [he] at h
        cases h
      have hn : Path.IsName part := ⟨hh, hu, hl⟩
      rw [walk_cons_of_isName hd hn] at h
      split at h
      · cases h
      · cases he : entries.lookup part with
        | none =>
          simp only [he] at h
          split at h
          · next hr =>
            obtain rfl := List.isEmpty_iff.mp hr
            obtain rfl := Except.ok.inj h
            exact .free hd hn he
          · cases h
        | some i =>
          simp only [he, arrive] at h
          split at h
          · cases h
          · next n hi =>
            split at h
            · next target ht =>
              obtain ⟨fewer, rfl, hlead⟩ := ho _ _ h
              exact .follow hd hn he hi ht hlead
            · next ht => exact .enter hd hn he hi ht (ih h)

theorem leads_of_walk (h : t.walk creating links here parts = .ok place) :
    t.Leads links here parts place := by
  induction links generalizing here parts with
  | zero => exact leads_of_walk_of_onward (fun _ _ ho => nomatch ho) h
  | succ links ih => exact leads_of_walk_of_onward (fun _ _ ho => ⟨links, rfl, ih ho⟩) h

/-- Where a path leads is found, unless something is to be created there. -/
theorem Leads.walk (h : t.Leads links here parts place) :
    t.walk false links here parts = .ok place := by
  induction h with
  | done => rw [walk_eq_descend, descend]
  | stay directory stays onward ih => rw [walk_cons_of_isHere directory stays, ih]
  | up directory notHere goesUp onward ih => rw [walk_cons_of_isUp directory notHere goesUp, ih]
  | free directory isName entry => simp [walk_cons_of_isName directory isName, entry]
  | enter directory isName entry node link onward ih =>
    simp [walk_cons_of_isName directory isName, entry, arrive, node, link, ih]
  | follow directory isName entry node link onward ih =>
    simp [walk_cons_of_isName directory isName, entry, arrive, node, link, FileTree.onward, ih]

structure Accepts (path : Text) : Prop where
  noZero : ¬ path.contains 0 = true
  nonempty : ¬ path.isEmpty = true
  short : ¬ 4096 ≤ path.length

theorem leads_of_locate {path : Text} (h : t.locate creating path = .ok place) :
    Accepts path ∧ t.Leads 40 (origin t.workingDirectory path) (Path.parts path) place := by
  unfold locate at h
  split at h
  · cases h
  · split at h
    · cases h
    · split at h
      · cases h
      · next h₁ h₂ h₃ => exact ⟨⟨h₁, h₂, h₃⟩, leads_of_walk h⟩

theorem find_eq_ok_iff {path : Text} :
    t.find path = .ok i ↔
      Accepts path ∧ t.Leads 40 (origin t.workingDirectory path) (Path.parts path) (.node i) := by
  constructor
  · intro h
    unfold find at h
    split at h
    · next j hl =>
      obtain rfl := Except.ok.inj h
      exact leads_of_locate hl
    · cases h
    · cases h
  · rintro ⟨ha, hl⟩
    have hlocate : t.locate false path = .ok (.node i) := by
      rw [locate, if_neg ha.noZero, if_neg ha.nonempty, if_neg ha.short, hl.walk]
    rw [find, hlocate]

end FileTree

end B100
