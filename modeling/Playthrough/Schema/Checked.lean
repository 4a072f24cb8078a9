import Playthrough.Json.Basic

/-!
# Checked values

Reading a document into a value of some type either succeeds or lists every issue
there is.  An issue names the place in the document by the path that leads to it.
-/

namespace Playthrough

inductive PathStep where
  | field (name : Text)
  | index (position : Nat)
  deriving DecidableEq, Repr

inductive IssueKind where
  | missing
  | notText
  | garbledText
  | notBool
  | unreadableBool
  | notInt
  | unreadableInt
  | oversizedInt
  | fractionalInt
  | infiniteInt
  | unknownName
  | notList
  | notTable
  | notSet
  | notRecord
  deriving DecidableEq, Repr

namespace IssueKind

def name : IssueKind → String
  | missing => "missing"
  | notText => "string_type"
  | garbledText => "string_unicode"
  | notBool => "bool_type"
  | unreadableBool => "bool_parsing"
  | notInt => "int_type"
  | unreadableInt => "int_parsing"
  | oversizedInt => "int_parsing_size"
  | fractionalInt => "int_from_float"
  | infiniteInt => "finite_number"
  | unknownName => "enum"
  | notList => "list_type"
  | notTable => "dict_type"
  | notSet => "frozen_set_type"
  | notRecord => "model_type"

end IssueKind

structure Issue where
  path : List PathStep
  kind : IssueKind
  deriving DecidableEq, Repr

def Issue.under (step : PathStep) (issue : Issue) : Issue :=
  { issue with path := step :: issue.path }

inductive Checked (α : Type) where
  | valid (value : α)
  | invalid (issues : List Issue)
  deriving DecidableEq, Repr

namespace Checked

variable {α β γ : Type}

def issue (kind : IssueKind) : Checked α := .invalid [⟨[], kind⟩]

def map (f : α → β) : Checked α → Checked β
  | valid value => valid (f value)
  | invalid issues => invalid issues

def both : Checked α → Checked β → Checked (α × β)
  | valid a, valid b => valid (a, b)
  | valid _, invalid issues => invalid issues
  | invalid issues, valid _ => invalid issues
  | invalid first, invalid second => invalid (first ++ second)

def apply (f : Checked (α → β)) (a : Checked α) : Checked β :=
  (f.both a).map fun pair => pair.1 pair.2

instance : Functor Checked := ⟨map, fun value => map fun _ => value⟩

instance : Applicative Checked where
  pure := valid
  seq f a := f.apply (a ())

def under (step : PathStep) : Checked α → Checked α
  | valid value => valid value
  | invalid issues => invalid (issues.map (Issue.under step))

def all : List (Checked α) → Checked (List α)
  | [] => valid []
  | value :: values => (value.both (all values)).map fun pair => pair.1 :: pair.2

@[simp] theorem map_valid (f : α → β) (value : α) : (valid value).map f = valid (f value) :=
  rfl

@[simp] theorem under_valid (step : PathStep) (value : α) :
    (valid value).under step = valid value := rfl

@[simp] theorem map_eq (f : α → β) (a : Checked α) : f <$> a = a.map f := rfl

@[simp] theorem valid_seq_valid (f : α → β) (value : α) :
    (valid f <*> valid value : Checked β) = valid (f value) := rfl

theorem seq_eq_valid_iff {f : Checked (α → β)} {a : Checked α} {b : β} :
    f <*> a = valid b ↔ ∃ g value, f = valid g ∧ a = valid value ∧ b = g value := by
  cases f <;> cases a <;> simp [Seq.seq, apply, both, map, eq_comm]

end Checked

abbrev Decoder (α : Type) := Json → Checked α

end Playthrough
