import B100.Settings.Document

/-! # References between entries

A value may refer to other entries as `%(name)s`. A reference is replaced by the value of that entry
as written, which may bring in further references.
-/

namespace B100

namespace Text

/-- Replaces the occurrences of `old`, given that the first `skip` bytes belong to one that has been
replaced already. -/
def replaceFrom (old new : Text) : Nat → Text → Text
  | _, [] => []
  | skip + 1, _ :: s => replaceFrom old new skip s
  | 0, b :: s =>
    if old.isPrefixOf (b :: s) then new ++ replaceFrom old new (old.length - 1) s
    else b :: replaceFrom old new 0 s

/-- Replaces every occurrence of a text, from left to right. -/
def replace (s old new : Text) : Text := replaceFrom old new 0 s

end Text

namespace Document

/-- How a reference to a name is written. -/
def reference (name : Text) : Text := "%(" ++ name ++ ")s"

/-- The name in the first reference of a value. -/
def referred? : Text → Option Text
  | [] => none
  | b :: s =>
    match Text.after? (b :: s) "%(" with
    | none => referred? s
    | some rest =>
      match rest.cut (· == ')'.toUInt8) with
      | (name, some after) =>
        if !name.isEmpty && ("s" : Text).isPrefixOf after then some name else referred? s
      | (_, none) => none

/-- The value that a reference in the entry `name` of a section stands for: that of another entry of
the same section, or else of the default section. -/
def referent? (d : Document) (s : Section) (name referred : Text) : Option Text :=
  let referred := referred.lower
  let byDefault := (d.section? defaultName).bind (·.value? referred)
  if referred = name then byDefault else (s.value? referred).or byDefault

/-- Replaces references until none is left or one stands for nothing, but in at most so many
rounds. -/
def expandIn (d : Document) (s : Section) (name : Text) : Nat → Text → Text
  | 0, value => value
  | rounds + 1, value =>
    match referred? value with
    | none => value
    | some referred =>
      match d.referent? s name referred with
      | none => value
      | some new => expandIn d s name rounds (value.replace (reference referred) new)

/-- The limit ends the expansion of entries that refer to each other. -/
def expand (d : Document) (s : Section) (name value : Text) : Text := d.expandIn s name 99 value

end Document

end B100
