import B100.Text.Basic

/-! # Inquiries

A computation that may ask for the values of keys while it runs. What it asks next may depend on
the answers so far, and nothing else about the settings can reach it. `Inquiry.run` answers from a
table and records every question.
-/

namespace B100

inductive Inquiry (α : Type) where
  | done (result : α)
  | ask (key : Text) (next : Option Text → Inquiry α)

/-- A question with its answer. -/
structure Lookup where
  key : Text
  value : Option Text
  deriving DecidableEq, Repr

namespace Inquiry

variable {α β : Type}

def bind : Inquiry α → (α → Inquiry β) → Inquiry β
  | done a, f => f a
  | ask key next, f => ask key fun value => (next value).bind f

instance : Monad Inquiry where
  pure := done
  bind := bind

/-- Asks for the value of one key. -/
def value (key : Text) : Inquiry (Option Text) := ask key done

/-- Answers every question from `resolve`: the questions in order, and the result. -/
def run (resolve : Text → Option Text) : Inquiry α → List Lookup × α
  | done a => ([], a)
  | ask key next =>
    let (lookups, a) := run resolve (next (resolve key))
    (⟨key, resolve key⟩ :: lookups, a)

end Inquiry

end B100
